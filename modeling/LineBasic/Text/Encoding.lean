/-!
# Reading UTF-8

Bytes are read one at a time. A byte below 0x80 is a character of its own; a lead
byte owes one, two or three further bytes, each between 0x80 and 0xBF, and the
first of them within narrower bounds after the four lead bytes where shorter
forms, surrogates or code points above the last one would begin.

Reading stops at the first byte that rules the text out. The error names the
bytes of the character that was begun: the lead byte and the further bytes that
were still acceptable, or all that is left when the bytes end too early.
-/

namespace LineBasic.Text

/-- Why bytes are not UTF-8. -/
inductive EncodingFlaw where
  /-- A byte that no character begins with. -/
  | badStart
  /-- A begun character is followed by a byte that does not continue it. -/
  | badContinuation
  /-- The bytes end within a character. -/
  | cutShort
deriving DecidableEq, Repr

/-- The bytes at fault: `count` bytes from offset `start`, the first being `lead`. -/
structure EncodingError where
  flaw : EncodingFlaw
  lead : Nat
  start : Nat
  count : Nat
deriving DecidableEq, Repr

/-- The reason as an error message words it. -/
def EncodingFlaw.reason : EncodingFlaw → String
  | .badStart => "invalid start byte"
  | .badContinuation => "invalid continuation byte"
  | .cutShort => "unexpected end of data"

/-- A single byte at fault is shown in hexadecimal, several by their first and
last offset. A byte at fault is never below 0x80, so two digits always show. -/
def EncodingError.message (error : EncodingError) : String :=
  let place :=
    if error.count = 1 then
      s!"byte 0x{String.ofList (Nat.toDigits 16 error.lead)} in position {error.start}"
    else
      s!"bytes in position {error.start}-{error.start + error.count - 1}"
  s!"'utf-8' codec can't decode {place}: {error.flaw.reason}"

/-- A character begun and not complete: its lead byte, how many of its bytes have
been read, how many are owed, the bounds of the next one, and the number that the
bytes so far spell. -/
structure Begun where
  lead : Nat
  taken : Nat
  owed : Nat
  low : Nat
  high : Nat
  spelled : Nat
deriving DecidableEq, Repr

/-- What a lead byte begins. No other byte from 0x80 on begins a character. -/
def begun? (byte : Nat) : Option Begun :=
  if 0xc2 ≤ byte ∧ byte ≤ 0xdf then some ⟨byte, 1, 1, 0x80, 0xbf, byte - 0xc0⟩
  else if byte = 0xe0 then some ⟨byte, 1, 2, 0xa0, 0xbf, 0⟩
  else if byte = 0xed then some ⟨byte, 1, 2, 0x80, 0x9f, 0xd⟩
  else if 0xe1 ≤ byte ∧ byte ≤ 0xef then some ⟨byte, 1, 2, 0x80, 0xbf, byte - 0xe0⟩
  else if byte = 0xf0 then some ⟨byte, 1, 3, 0x90, 0xbf, 0⟩
  else if 0xf1 ≤ byte ∧ byte ≤ 0xf3 then some ⟨byte, 1, 3, 0x80, 0xbf, byte - 0xf0⟩
  else if byte = 0xf4 then some ⟨byte, 1, 3, 0x80, 0x8f, 4⟩
  else none

/-- Reads bytes from an offset on, within a begun character if there is one. -/
def decodeFrom (offset : Nat) : Option Begun → List UInt8 → Except EncodingError (List Char)
  | none, [] => .ok []
  | some begun, [] => .error ⟨.cutShort, begun.lead, offset - begun.taken, begun.taken⟩
  | none, byte :: rest =>
    if byte.toNat < 0x80 then
      (decodeFrom (offset + 1) none rest).map (Char.ofNat byte.toNat :: ·)
    else
      match begun? byte.toNat with
      | none => .error ⟨.badStart, byte.toNat, offset, 1⟩
      | some begun => decodeFrom (offset + 1) (some begun) rest
  | some begun, byte :: rest =>
    if begun.low ≤ byte.toNat ∧ byte.toNat ≤ begun.high then
      let spelled := begun.spelled * 64 + (byte.toNat - 0x80)
      if begun.owed = 1 then
        (decodeFrom (offset + 1) none rest).map (Char.ofNat spelled :: ·)
      else
        decodeFrom (offset + 1)
          (some ⟨begun.lead, begun.taken + 1, begun.owed - 1, 0x80, 0xbf, spelled⟩) rest
    else
      .error ⟨.badContinuation, begun.lead, offset - begun.taken, begun.taken⟩

/-- The text that the bytes encode. A byte order mark is kept as a character. -/
def decode (bytes : List UInt8) : Except EncodingError (List Char) :=
  decodeFrom 0 none bytes

end LineBasic.Text
