/-!
# Rounding to binary64

A finite binary64 number is a whole multiple of 2⁻¹⁰⁷⁴, and its multiple has at
most 53 significant bits. So a non-negative number is represented here by that
multiple. Rounding a fraction takes the multiples of the least power of two that
leaves 53 bits, chooses the nearest of them, and between two equally near ones
the one with the even quotient.
-/

namespace LineBasic.Numeral.Binary64

/-- The whole number nearest to a fraction; of two equally near, the even one. -/
def roundDiv (num den : Nat) : Nat :=
  let quotient := num / den
  let excess := 2 * (num % den)
  if excess < den ∨ (excess = den ∧ quotient % 2 = 0) then quotient else quotient + 1

/-- How many units make one. -/
def unitsPerOne : Nat := Nat.pow 2 1074

/-- The fraction in units of 2⁻¹⁰⁷⁴, rounded to 53 significant bits. -/
def nearest (num den : Nat) : Nat :=
  let scaled := num * unitsPerOne
  let spacing := Nat.pow 2 (Nat.log2 (scaled / den) - 52)
  roundDiv scaled (den * spacing) * spacing

/-- The whole part of the binary64 number nearest to a fraction, or nothing where
rounding leaves the finite range, which ends at 2¹⁰²⁴. -/
def whole? (num den : Nat) : Option Nat :=
  let rounded := nearest num den
  if rounded < Nat.pow 2 1024 * unitsPerOne then some (rounded / unitsPerOne) else none

end LineBasic.Numeral.Binary64
