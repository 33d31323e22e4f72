import LineBasic.Text.Printable

/-!
# Quoted text

A quoted text stands between two apostrophes, or between two double quotes when
it holds an apostrophe and no double quote. Backslashes and the surrounding quote
are written after a backslash, tabs and line ends by their letter, and any other
character that is not printable by the shortest of three hexadecimal forms that
holds its code point. What is printable stands for itself.
-/

namespace LineBasic.Text

/-- The quote that surrounds a text: a double quote only where that avoids
writing an apostrophe after a backslash. -/
def surroundingQuote (text : List Char) : Char :=
  if text.contains '\'' && !text.contains '"' then '"' else '\''

/-- A number in lower-case hexadecimal, padded with zeros to a least width. -/
def hexPadded (width : Nat) (n : Nat) : List Char :=
  let digits := Nat.toDigits 16 n
  List.replicate (width - digits.length) '0' ++ digits

/-- One character of a text that stands between the given quotes. -/
def quotedChar (quote : Char) (c : Char) : List Char :=
  if c = quote ∨ c = '\\' then ['\\', c]
  else if c = '\t' then ['\\', 't']
  else if c = '\n' then ['\\', 'n']
  else if c = '\r' then ['\\', 'r']
  else if isPrintable c then [c]
  else if c.toNat < 0x100 then '\\' :: 'x' :: hexPadded 2 c.toNat
  else if c.toNat < 0x10000 then '\\' :: 'u' :: hexPadded 4 c.toNat
  else '\\' :: 'U' :: hexPadded 8 c.toNat

/-- The quoted form of a text. -/
def quoted (text : List Char) : List Char :=
  let quote := surroundingQuote text
  quote :: text.flatMap (quotedChar quote) ++ [quote]

end LineBasic.Text
