import LineBasic.Text.Blank
import LineBasic.Text.Digit
import LineBasic.Text.Quoted

/-!
# Integers and their decimal numerals

A numeral has an optional sign and at least one digit of any script; a single
underscore may separate two digits. Margins of blank characters may surround it.
Neither reading nor writing handles more than `digitLimit` digits: conversion
between a number and its numeral takes time that grows faster than its length.

Reading checks the limit as soon as the digits are known, before it looks at what
follows them. Leading zeros count as digits; signs and underscores do not.
-/

namespace LineBasic.Numeral

open Text

/-- The greatest number of digits that is read or written. -/
def digitLimit : Nat := 4300

/-- Why a text is not read as an integer. -/
inductive Flaw where
  /-- The text is not a numeral between margins. -/
  | malformed
  /-- The numeral has more digits than the limit. -/
  | tooManyDigits (count : Nat)
deriving DecidableEq, Repr

/-- The wording for a text that is read and has too many digits. -/
def tooManyDigitsMessage (count : Nat) : String :=
  s!"Exceeds the limit ({digitLimit} digits) for integer string conversion: " ++
    s!"value has {count} digits; use sys.set_int_max_str_digits() to increase the limit"

/-- The wording for a number that cannot be written. -/
def tooLongMessage : String :=
  s!"Exceeds the limit ({digitLimit} digits) for integer string conversion; " ++
    "use sys.set_int_max_str_digits() to increase the limit"

/-- The wording for a text that is not a numeral: the text as it was given, quoted,
and cut after two hundred characters. -/
def malformedMessage (text : List Char) : String :=
  "invalid literal for int() with base 10: " ++ String.ofList ((quoted text).take 200)

/-- The number that a list of digits writes, the most significant first. -/
def ofDigits (digits : List Nat) : Nat :=
  digits.foldl (fun value digit => 10 * value + digit) 0

/-- The digits of a text in which underscores stand only between two digits.
The text has to begin and to end with a digit. -/
def groupedDigits? : List Char → Option (List Nat)
  | [] => none
  | [c] => (digit? c).map ([·])
  | c :: '_' :: rest => do
    let digit ← digit? c
    let digits ← groupedDigits? rest
    pure (digit :: digits)
  | c :: rest => do
    let digit ← digit? c
    let digits ← groupedDigits? rest
    pure (digit :: digits)

/-- The characters that a run of digits is made of. -/
def inRun (c : Char) : Bool := isDigit c || c == '_'

/-- Separates a sign from what follows it. True stands for a minus. -/
def splitSign : List Char → Bool × List Char
  | '-' :: rest => (true, rest)
  | '+' :: rest => (false, rest)
  | text => (false, text)

/-- A number with the sign that stands in front of its digits. -/
def signed (negative : Bool) (magnitude : Nat) : Int :=
  if negative then -(magnitude : Int) else magnitude

/-- The blanks that may surround a numeral. The four information separators of
ASCII are blank elsewhere and are not accepted here. -/
def isMargin (c : Char) : Bool :=
  isBlank c && !(0x1c ≤ c.toNat && c.toNat ≤ 0x1f)

/-- The integer that a text writes. -/
def read (text : List Char) : Except Flaw Int :=
  let (negative, body) := splitSign (text.dropWhile isMargin)
  match groupedDigits? (body.takeWhile inRun) with
  | none => .error .malformed
  | some digits =>
    if digitLimit < digits.length then
      .error (.tooManyDigits digits.length)
    else if (body.dropWhile inRun).all isMargin then
      .ok (signed negative (ofDigits digits))
    else
      .error .malformed

/-- The numeral of an integer, with a minus in front of a negative one. -/
def write (n : Int) : String :=
  if n < 0 then "-" ++ String.ofList (Nat.toDigits 10 n.natAbs)
  else String.ofList (Nat.toDigits 10 n.natAbs)

/-- The first number whose numeral is too long to be written. -/
def writeBound : Nat := Nat.pow 10 digitLimit

/-- The numeral of an integer, unless it has more digits than the limit. -/
def write? (n : Int) : Option String :=
  if n.natAbs < writeBound then some (write n) else none

/-- Whether a number can serve as a count or an index: it fits in a signed word of 64
bits. -/
def countable (n : Int) : Bool := -0x8000000000000000 ≤ n && n < 0x8000000000000000

end LineBasic.Numeral
