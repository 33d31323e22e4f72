import LineBasic.Proofs.PrintedNumbers

/-!
# Whole numbers written with a point

An answer in the window may have a point, and is then rounded to binary64 before its whole part is
taken. A whole number up to 2⁵³ is a multiple of the spacing of binary64 numbers at its place, so
rounding keeps it, and so does any number of zeros behind the point: they multiply the digits and
the power of ten that divides them alike. The answer therefore counts for the same number as it
does without the point, also if that is zero, with either sign.
-/

namespace LineBasic

namespace Numeral

/-! ## Rounding -/

namespace Binary64

/-- A fraction that is a whole number is rounded to that number. -/
theorem roundDiv_mul {den : Nat} (positive : 0 < den) (quotient : Nat) :
    roundDiv (quotient * den) den = quotient := by
  simp [roundDiv, Nat.mul_div_cancel _ positive, positive]

/-- The units are a power of two. -/
theorem exists_unitsPerOne_eq : ∃ bits, unitsPerOne = Nat.pow 2 bits := by
  unfold unitsPerOne
  exact ⟨_, rfl⟩

/-- One has a positive number of units. -/
theorem unitsPerOne_pos : 0 < unitsPerOne := by
  obtain ⟨bits, units⟩ := exists_unitsPerOne_eq
  rw [units]
  exact Nat.two_pow_pos bits

/-- A number up to 2⁵³, in units, is a multiple of the spacing at its place. -/
theorem spacing_dvd {n : Nat} (small : n ≤ 2 ^ 53) :
    Nat.pow 2 (Nat.log2 (n * unitsPerOne) - 52) ∣ n * unitsPerOne := by
  obtain ⟨bits, units⟩ := exists_unitsPerOne_eq
  rw [units, Nat.pow_eq, Nat.pow_eq]
  rcases Nat.eq_zero_or_pos n with rfl | positive
  · rw [Nat.zero_mul]
    exact Nat.dvd_zero _
  -- The bound itself has one bit more than the numbers below it, and is a power of two.
  rcases Nat.lt_or_eq_of_le small with below | rfl
  · have bounded : n * 2 ^ bits < 2 ^ (53 + bits) := by
      rw [Nat.pow_add]
      exact Nat.mul_lt_mul_of_pos_right below (Nat.two_pow_pos bits)
    have filled : n * 2 ^ bits ≠ 0 := Nat.ne_of_gt (Nat.mul_pos positive (Nat.two_pow_pos bits))
    have length := (Nat.log2_lt filled).mpr bounded
    exact Nat.dvd_mul_left_of_dvd (Nat.pow_dvd_pow 2 (by omega)) n
  · rw [← Nat.pow_add, Nat.log2_two_pow]
    exact Nat.pow_dvd_pow 2 (Nat.sub_le _ _)

/-- Rounding keeps whole numbers up to 2⁵³, whatever fraction they are given as. -/
theorem nearest_whole {n den : Nat} (small : n ≤ 2 ^ 53) (positive : 0 < den) :
    nearest (n * den) den = n * unitsPerOne := by
  have divided : n * den * unitsPerOne / den = n * unitsPerOne := by
    rw [Nat.mul_right_comm, Nat.mul_div_cancel _ positive]
  obtain ⟨quotient, multiple⟩ := spacing_dvd small
  simp only [nearest, divided]
  have spaced : 0 < Nat.pow 2 (Nat.log2 (n * unitsPerOne) - 52) := Nat.two_pow_pos _
  generalize Nat.pow 2 (Nat.log2 (n * unitsPerOne) - 52) = spacing at multiple spaced ⊢
  have scaled : n * den * unitsPerOne = quotient * (den * spacing) := by
    calc n * den * unitsPerOne = n * unitsPerOne * den := Nat.mul_right_comm _ _ _
      _ = spacing * quotient * den := by rw [multiple]
      _ = quotient * (den * spacing) := by
        rw [Nat.mul_comm spacing, Nat.mul_assoc, Nat.mul_comm spacing]
  rw [scaled, roundDiv_mul (Nat.mul_pos positive spaced), multiple, Nat.mul_comm]

/-- The whole part of a whole number up to 2⁵³ is that number. -/
theorem whole?_whole {n den : Nat} (small : n ≤ 2 ^ 53) (positive : 0 < den) :
    whole? (n * den) den = some n := by
  have finite (bits : Nat) (wide : 53 < bits) : n * unitsPerOne < Nat.pow 2 bits * unitsPerOne := by
    refine Nat.mul_lt_mul_of_pos_right ?_ unitsPerOne_pos
    rw [Nat.pow_eq]
    exact Nat.lt_of_le_of_lt small (Nat.pow_lt_pow_right (by decide) wide)
  rw [whole?, nearest_whole small positive]
  split
  · rw [Nat.mul_div_cancel _ unitsPerOne_pos]
  · next infinite => exact absurd (finite _ (by decide)) infinite

end Binary64

/-! ## Decimals -/

/-- Zeros behind digits multiply their number by ten each. -/
theorem ofDigits_zeros (digits : List Nat) (count : Nat) :
    ofDigits (digits ++ List.replicate count 0) = ofDigits digits * 10 ^ count := by
  induction count with
  | zero => simp
  | succ count inductionHypothesis =>
    rw [List.replicate_succ', ← List.append_assoc, ofDigits, List.foldl_concat, ← ofDigits,
      inductionHypothesis, Nat.pow_succ, Nat.add_zero, Nat.mul_comm, Nat.mul_assoc]

/-- A number up to 2⁵³ has no more than sixteen digits. -/
theorem length_toDigits_le {n : Nat} (small : n ≤ 2 ^ 53) : (Nat.toDigits 10 n).length ≤ 16 := by
  rw [Nat.length_toDigits_le_iff (by decide) (by decide)]
  exact Nat.lt_of_le_of_lt small (by decide)

namespace Decimal

/-- A whole number with a point behind its digits and zeros behind the point. -/
def ofWhole (negative : Bool) (n count : Nat) : Decimal :=
  ⟨negative, digitsOf n ++ List.replicate count 0, 0 - count⟩

variable {n : Nat}

/-- The power of ten just above a whole number is not below one, and not above that for the number
of its digits. -/
theorem magnitude_ofWhole (filled : n ≠ 0) (negative : Bool) (count : Nat) :
    0 ≤ (ofWhole negative n count).magnitude ∧
      (ofWhole negative n count).magnitude ≤ (Nat.toDigits 10 n).length := by
  have significant : (digitsOf n).dropWhile (· == 0) ≠ [] := by
    intro nothing
    have zeros : ∀ digit ∈ digitsOf n, digit = 0 := by
      simpa using List.dropWhile_eq_nil_iff.mp nothing
    have zero := ofDigits_zeros [] (digitsOf n).length
    rw [List.nil_append, ← List.eq_replicate_of_mem zeros, ofDigits_digitsOf] at zero
    exact filled (zero.trans (Nat.zero_mul _))
  have fewer := (List.dropWhile_suffix (l := digitsOf n) (· == 0)).length_le
  have kept : ((digitsOf n ++ List.replicate count 0).dropWhile (· == 0)).length =
      ((digitsOf n).dropWhile (· == 0)).length + count := by
    rw [List.dropWhile_append, if_neg (by simpa using significant), List.length_append,
      List.length_replicate]
  rw [length_digitsOf] at fewer
  simp only [magnitude, ofWhole, kept]
  omega

/-- The whole part of a whole number up to 2⁵³ is that number, with its sign. -/
theorem whole?_ofWhole (small : n ≤ 2 ^ 53) (negative : Bool) (count : Nat) :
    (ofWhole negative n count).whole? = some (signed negative n) := by
  have mantissa : ofDigits (ofWhole negative n count).digits = n * 10 ^ count := by
    rw [ofWhole, ofDigits_zeros, ofDigits_digitsOf]
  have down : (ofWhole negative n count).exponent.toNat = 0 := by
    simp only [ofWhole]
    omega
  have up : (-(ofWhole negative n count).exponent).toNat = count := by
    simp only [ofWhole]
    omega
  rw [whole?, mantissa, down, up]
  rcases Nat.eq_zero_or_pos n with rfl | positive
  · rw [if_pos (.inl (Nat.zero_mul _))]
    cases negative <;> rfl
  · have filled : n ≠ 0 := Nat.ne_of_gt positive
    have digits := length_toDigits_le small
    obtain ⟨low, high⟩ := magnitude_ofWhole filled negative count
    have power : 0 < Nat.pow 10 count := Nat.pow_pos (by decide)
    have nonzero : n * 10 ^ count ≠ 0 := Nat.mul_ne_zero filled (Nat.ne_of_gt power)
    rw [if_neg (by omega), if_neg (by omega), Nat.pow_eq, Nat.pow_zero, Nat.mul_one]
    rw [← Nat.pow_eq, Binary64.whole?_whole small power]
    rfl

/-- Digits that may be missing stand together without underscores. -/
theorem optionalDigits?_run {run : List Char} (digits : ∀ c ∈ run, Text.isDigit c = true) :
    optionalDigits? run = some (run.filterMap Text.digit?) := by
  cases run with
  | nil => rfl
  | cons c run => exact groupedDigits?_run (List.cons_ne_nil c run) digits

/-- The digits of an integer are read with its sign, the point and the zeros behind it. -/
theorem read?_whole {sign : String} {n : Int} (isSigned : Signed sign n) (count : Nat) :
    ∃ negative, signed negative n.natAbs = n ∧
      read? (sign.toList ++ Nat.toDigits 10 n.natAbs ++ '.' :: List.replicate count '0') =
        some (ofWhole negative n.natAbs count) := by
  obtain ⟨negative, same, separated⟩ := isSigned.splitSign_eq
  refine ⟨negative, same, ?_⟩
  have body : splitSign
      (sign.toList ++ Nat.toDigits 10 n.natAbs ++ '.' :: List.replicate count '0') =
        (negative, Nat.toDigits 10 n.natAbs ++ '.' :: List.replicate count '0') := by
    rw [splitSign_append (List.append_ne_nil_of_right_ne_nil _ Nat.toDigits_ne_nil), separated]
  have isRun : ∀ c ∈ Nat.toDigits 10 n.natAbs, inRun c = true := fun c member =>
    inRun_of_isDigit (isDigit_toDigits member)
  have leading : (Nat.toDigits 10 n.natAbs ++ '.' :: List.replicate count '0').takeWhile inRun =
      Nat.toDigits 10 n.natAbs := Token.takeWhile_run isRun (by rintro c ⟨⟩; decide)
  have behind : (Nat.toDigits 10 n.natAbs ++ '.' :: List.replicate count '0').dropWhile inRun =
      '.' :: List.replicate count '0' := List.dropWhile_append_of_pos isRun
  have zeros : ∀ c ∈ List.replicate count '0', Text.isDigit c = true := fun c member =>
    List.eq_of_mem_replicate member ▸ rfl
  have zeroRun : ∀ c ∈ List.replicate count '0', inRun c = true := fun c member =>
    inRun_of_isDigit (zeros c member)
  have zeroValues : (List.replicate count '0').filterMap Text.digit? = List.replicate count 0 :=
    List.filterMap_replicate_of_some rfl
  simp only [read?, body, leading, behind, Token.takeWhile_eq_self zeroRun,
    List.dropWhile_eq_nil_iff.mpr zeroRun, optionalDigits?_run fun _ => isDigit_toDigits,
    optionalDigits?_run zeros, values_toDigits, zeroValues, exponent?]
  simp [digitsOf_ne_nil, ofWhole]

end Decimal

end Numeral

/-! ## Answers -/

namespace Window

open Numeral Text

section Whole

variable {sign left right : String} {n : Int} (isSigned : Signed sign n)
  (small : n.natAbs ≤ 2 ^ 53) (before : ∀ c ∈ left.toList, isBlank c = true)
  (after : ∀ c ∈ right.toList, isBlank c = true)

include isSigned small before after

/-- The digits of an integer with its sign, between blanks, are an answer of that integer. -/
theorem answer_whole : answer (some (left ++ (sign ++ n.natAbs.repr) ++ right)) = .ok n := by
  have trimmed : trim (left ++ (sign ++ n.natAbs.repr) ++ right).toList =
      sign.toList ++ Nat.toDigits 10 n.natAbs := by
    rw [String.toList_append, String.toList_append, String.toList_append, Nat.toList_repr]
    exact trim_surrounded before (fun _ => isSigned.isBlank_mem) after
  have few := Nat.le_trans (length_toDigits_le small) (by decide : 16 ≤ digitLimit)
  have accepted := isSigned.read_eq few
  have noPoint : '.' ∉ sign.toList ++ Nat.toDigits 10 n.natAbs := fun member =>
    absurd (mem_of_read accepted '.' member) (by decide)
  simp only [answer, trimmed]
  simp [noPoint, Machine.reply, accepted, Except.mapError]

/-- They are so too if a point and zeros stand behind them. -/
theorem answer_point (zeros : Nat) :
    answer (some (left ++ (sign ++ n.natAbs.repr ++ "." ++
      String.ofList (List.replicate zeros '0')) ++ right)) = .ok n := by
  let core := sign.toList ++ Nat.toDigits 10 n.natAbs ++ '.' :: List.replicate zeros '0'
  have inside : ∀ c ∈ core, isBlank c = false := by
    intro c member
    rcases List.mem_append.mp member with isNumeral | isBehind
    · exact isSigned.isBlank_mem isNumeral
    · rcases List.mem_cons.mp isBehind with rfl | isZero
      · decide
      · rw [List.eq_of_mem_replicate isZero]
        decide
  have trimmed : trim (left ++ (sign ++ n.natAbs.repr ++ "." ++
      String.ofList (List.replicate zeros '0')) ++ right).toList = core := by
    simpa [core, Nat.toList_repr] using trim_surrounded before inside after
  have point : core.contains '.' = true := by simp [core]
  obtain ⟨negative, same, read⟩ := Decimal.read?_whole isSigned zeros
  have whole := Decimal.whole?_ofWhole small negative zeros
  simp only [answer, trimmed, point, if_true, core, read, whole, same]

end Whole

end Window

/-- A whole number up to 2⁵³, given as an answer with a point and any number of zeros behind its
digits, is stored exactly, and as the answer without the point and the zeros is. It may have a sign,
and blanks around it.

Zeros behind the point leave the value of the decimal as it is. Up to the bound a whole number is a
multiple of the spacing of the numbers around it, so that rounding keeps it, and its whole part is
itself. -/
theorem whole_answer_exact {n : Int} {sign left right : String} (small : n.natAbs ≤ 2 ^ 53)
    (isSigned : Numeral.Signed sign n) (before : ∀ c ∈ left.toList, Text.isBlank c = true)
    (after : ∀ c ∈ right.toList, Text.isBlank c = true) (zeros : Nat)
    (answers : List (Option String)) :
    let numeral := sign ++ n.natAbs.repr
    let pointed := numeral ++ "." ++ String.ofList (List.replicate zeros '0')
    (Window.feed (some (left ++ pointed ++ right) :: answers)).Supplies n (Window.feed answers) ∧
      (Window.feed (some (left ++ numeral ++ right) :: answers)).Supplies n
        (Window.feed answers) := by
  constructor
  · exact .of_answer (Window.answer_point isSigned small before after zeros) answers
  · exact .of_answer (Window.answer_whole isSigned small before after) answers

/-- The least of these numbers, and a zero with a minus. -/
theorem whole_answer_exact_bounds :
    (Window.feed [some "\t-9007199254740992.000 ", none]).Supplies (-9007199254740992)
        (Window.feed [none]) ∧
      (Window.feed [some "-0.", none]).Supplies 0 (Window.feed [none]) := by
  have least : "\t" ++ ("-" ++ (-9007199254740992 : Int).natAbs.repr ++ "." ++
      String.ofList (List.replicate 3 '0')) ++ " " = "\t-9007199254740992.000 " := by
    decide +kernel
  have zero : "" ++ ("-" ++ (0 : Int).natAbs.repr ++ "." ++
      String.ofList (List.replicate 0 '0')) ++ "" = "-0." := by
    decide +kernel
  have tab : ∀ c ∈ "\t".toList, Text.isBlank c = true := List.all_eq_true.mp (by decide)
  have space : ∀ c ∈ " ".toList, Text.isBlank c = true := List.all_eq_true.mp (by decide)
  have nothing : ∀ c ∈ "".toList, Text.isBlank c = true := List.all_eq_true.mp (by decide)
  constructor
  · rw [← least]
    exact (whole_answer_exact (by decide) (.minus (by decide)) tab space 3 [none]).1
  · rw [← zero]
    exact (whole_answer_exact (by decide) (.minus (by decide)) nothing nothing 0 [none]).1

end LineBasic
