import LineBasic.Numeral.Binary64
import LineBasic.Numeral.Integer

/-!
# Numbers written with a point

A decimal has an optional sign, digits with a point among them or at either end,
and an optional exponent. Digits may be of any script, and a single underscore
may separate two of them. Its whole part is taken after rounding to binary64, so
that a decimal a little below an integer may count as that integer.
-/

namespace LineBasic.Numeral

/-- A decimal: its digits without the point, and the power of ten that the last
of them counts. -/
structure Decimal where
  negative : Bool
  digits : List Nat
  exponent : Int
deriving DecidableEq, Repr

namespace Decimal

/-- Digits that may be missing altogether. -/
def optionalDigits? : List Char → Option (List Nat)
  | [] => some []
  | run => groupedDigits? run

/-- The exponent that ends a decimal: nothing at all, or the letter e in either
case, an optional sign, and digits up to the end. -/
def exponent? : List Char → Option Int
  | [] => some 0
  | mark :: rest =>
    if mark = 'e' ∨ mark = 'E' then
      let (negative, digits) := splitSign rest
      (groupedDigits? digits).map fun digits => signed negative (ofDigits digits)
    else
      none

/-- Reads a decimal. The point has to be there, and a digit on one of its sides. -/
def read? (text : List Char) : Option Decimal :=
  let (negative, body) := splitSign text
  match body.dropWhile inRun with
  | '.' :: rest => do
    let leading ← optionalDigits? (body.takeWhile inRun)
    let fraction ← optionalDigits? (rest.takeWhile inRun)
    let exponent ← exponent? (rest.dropWhile inRun)
    if leading.isEmpty && fraction.isEmpty then
      none
    else
      pure ⟨negative, leading ++ fraction, exponent - fraction.length⟩
  | _ => none

/-- The power of ten just above a decimal: it is below that power, and not below
a tenth of it unless it is zero. -/
def magnitude (decimal : Decimal) : Int :=
  (decimal.digits.dropWhile (· == 0)).length + decimal.exponent

/-- The whole part, toward zero, of the binary64 number nearest to a decimal, or
nothing where that number is infinite. A decimal below a tenth has the whole part
zero and one from 10³⁰⁹ on is infinite, so no greater power of ten is computed. -/
def whole? (decimal : Decimal) : Option Int :=
  let mantissa := ofDigits decimal.digits
  if mantissa = 0 ∨ decimal.magnitude < 0 then some 0
  else if 309 < decimal.magnitude then none
  else
    (Binary64.whole? (mantissa * Nat.pow 10 decimal.exponent.toNat)
      (Nat.pow 10 (-decimal.exponent).toNat)).map (signed decimal.negative)

end Decimal

end LineBasic.Numeral
