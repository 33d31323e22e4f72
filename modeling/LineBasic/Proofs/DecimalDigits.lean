import LineBasic.Proofs.Margins
import LineBasic.Proofs.WellFormed

/-!
# The decimal digits of a number

The digits of a number are written with characters of ASCII, and every way of reading takes these
for what they are: alone as digits, together as the number. A sign may stand in front of them. A
number below zero needs its minus, one above zero may have a plus, and zero has any sign or none.

What is written for an integer is one of these forms, so it is read as that integer. Reading has
the same limit as writing: neither handles a digit more than the other.
-/

namespace LineBasic

open Text

/-! ## Digits -/

/-- The digits of ASCII have the values that decimal numerals give them. -/
theorem Text.digit?_decimal {c : Char} (decimal : c.isDigit = true) :
    digit? c = some (c.toNat - '0'.toNat) := by
  have bounds : 48 ≤ c.toNat ∧ c.toNat ≤ 57 := by
    simpa [Char.isDigit, UInt32.le_iff_toNat_le] using decimal
  rw [Token.digit?_ascii (by omega), if_pos (by omega)]
  rfl

namespace Numeral

/-- The values of the decimal digits of a number, the most significant first. -/
def digitsOf (n : Nat) : List Nat := (Nat.toDigits 10 n).map fun c => c.toNat - '0'.toNat

/-- The digits of a number write it. -/
@[simp]
theorem ofDigits_digitsOf (n : Nat) : ofDigits (digitsOf n) = n := by
  rw [ofDigits, digitsOf, List.foldl_map]
  exact Nat.ofDigitChars_ten_toDigits

/-- There are as many values as digits written. -/
@[simp]
theorem length_digitsOf (n : Nat) : (digitsOf n).length = (Nat.toDigits 10 n).length :=
  List.length_map _

/-- Every number has a digit. -/
theorem digitsOf_ne_nil (n : Nat) : digitsOf n ≠ [] := by
  rw [digitsOf, ne_eq, List.map_eq_nil_iff]
  exact Nat.toDigits_ne_nil

variable {n : Nat} {c : Char}

/-- A digit that is written down has the value of its distance from zero. -/
theorem digit?_toDigits (member : c ∈ Nat.toDigits 10 n) :
    digit? c = some (c.toNat - '0'.toNat) :=
  digit?_decimal (Nat.isDigit_of_mem_toDigits (by decide) (by decide) member)

/-- A number is written in digits only. -/
theorem isDigit_toDigits (member : c ∈ Nat.toDigits 10 n) : isDigit c = true := by
  rw [isDigit, digit?_toDigits member]
  rfl

/-- Digits belong to the run of a numeral. -/
theorem inRun_of_isDigit (digit : isDigit c = true) : inRun c = true := by
  rw [inRun, digit, Bool.true_or]

/-- The values of the characters are those of the digits. -/
theorem values_toDigits (n : Nat) : (Nat.toDigits 10 n).filterMap digit? = digitsOf n := by
  rw [digitsOf, ← List.filterMap_eq_map]
  exact List.filterMap_congr fun _ => digit?_toDigits

/-- Digits may stand together without underscores. -/
theorem groupedDigits?_run {run : List Char} (filled : run ≠ [])
    (digits : ∀ c ∈ run, isDigit c = true) : groupedDigits? run = some (run.filterMap digit?) := by
  have value {c : Char} (digit : isDigit c = true) : ∃ value, digit? c = some value :=
    Option.isSome_iff_exists.mp digit
  fun_induction groupedDigits? run with
  | case1 => exact absurd rfl filled
  | case2 c =>
    obtain ⟨first, isFirst⟩ := value (digits c List.mem_cons_self)
    simp [isFirst]
  | case3 c rest =>
    have underscore := digits '_' (by simp)
    exact absurd underscore (by decide)
  | case4 c rest more _ inductionHypothesis =>
    obtain ⟨here, others⟩ := List.forall_mem_cons.mp digits
    obtain ⟨first, isFirst⟩ := value here
    have rest := inductionHypothesis more others
    simp [isFirst, rest]

/-! ## Signs -/

/-- The signs that an integer may have in front of its digits. -/
inductive Signed : String → Int → Prop where
  | minus {n : Int} (low : n ≤ 0) : Signed "-" n
  | plus {n : Int} (high : 0 ≤ n) : Signed "+" n
  | bare {n : Int} (high : 0 ≤ n) : Signed "" n

namespace Signed

variable {sign : String} {n : Int}

/-- A sign is separated from the digits, and with it their number is the integer. -/
theorem splitSign_eq (isSigned : Signed sign n) :
    ∃ negative, signed negative n.natAbs = n ∧
      splitSign (sign.toList ++ Nat.toDigits 10 n.natAbs) =
        (negative, Nat.toDigits 10 n.natAbs) := by
  cases isSigned with
  | minus low =>
    refine ⟨true, ?_, rfl⟩
    rw [signed, if_pos rfl, Int.ofNat_natAbs_of_nonpos low, Int.neg_neg]
  | plus high => exact ⟨false, Int.natAbs_of_nonneg high, rfl⟩
  | bare high =>
    refine ⟨false, Int.natAbs_of_nonneg high, ?_⟩
    cases digits : Nat.toDigits 10 n.natAbs with
    | nil => rfl
    | cons c rest =>
      have isDigit : isDigit c = true := isDigit_toDigits (digits ▸ List.mem_cons_self)
      have notMinus : c ≠ '-' := by
        rintro rfl
        exact absurd isDigit (by decide)
      have notPlus : c ≠ '+' := by
        rintro rfl
        exact absurd isDigit (by decide)
      simp [splitSign, notMinus, notPlus]

/-- No blank stands in a number with its sign. -/
theorem isBlank_mem (isSigned : Signed sign n) {c : Char}
    (member : c ∈ sign.toList ++ Nat.toDigits 10 n.natAbs) : isBlank c = false := by
  rcases List.mem_append.mp member with isSign | isDigit
  · cases isSigned with
    | minus => exact List.mem_singleton.mp isSign ▸ rfl
    | plus => exact List.mem_singleton.mp isSign ▸ rfl
    | bare => cases isSign
  · exact isBlank_of_isDigit (isDigit_toDigits isDigit)

/-- The digits of an integer, with its sign, are read as the integer if there are not too many. -/
theorem read_eq (isSigned : Signed sign n) (few : (Nat.toDigits 10 n.natAbs).length ≤ digitLimit) :
    read (sign.toList ++ Nat.toDigits 10 n.natAbs) = .ok n := by
  have noMargin : (sign.toList ++ Nat.toDigits 10 n.natAbs).dropWhile isMargin =
      sign.toList ++ Nat.toDigits 10 n.natAbs :=
    Token.dropWhile_eq_self fun c member => by
      rw [isMargin, isSigned.isBlank_mem member, Bool.false_and]
  have inside : ∀ c ∈ Nat.toDigits 10 n.natAbs, inRun c = true := fun c member =>
    inRun_of_isDigit (isDigit_toDigits member)
  obtain ⟨negative, same, separated⟩ := isSigned.splitSign_eq
  unfold read
  rw [noMargin, separated]
  dsimp only
  rw [Token.takeWhile_eq_self inside, List.dropWhile_eq_nil_iff.mpr inside,
    groupedDigits?_run Nat.toDigits_ne_nil fun _ => isDigit_toDigits, values_toDigits]
  simp [Nat.not_lt.mpr few, same]

end Signed

/-- What is written for an integer is its digits, behind a sign that it may have. -/
theorem write_eq (n : Int) :
    ∃ sign, Signed sign n ∧ (write n).toList = sign.toList ++ Nat.toDigits 10 n.natAbs := by
  unfold write
  split
  · next below => exact ⟨"-", .minus (Int.le_of_lt below), by simp⟩
  · next above => exact ⟨"", .bare (Int.not_lt.mp above), by simp⟩

/-- No blank is written for an integer. -/
theorem isBlank_write {n : Int} {c : Char} (member : c ∈ (write n).toList) : isBlank c = false := by
  obtain ⟨sign, isSigned, written⟩ := write_eq n
  rw [written] at member
  exact isSigned.isBlank_mem member

/-- A natural number is written by its digits alone. -/
theorem write_natCast (n : Nat) : (write n).toList = Nat.toDigits 10 n := by
  have notNegative : ¬ (n : Int) < 0 := by omega
  rw [write, if_neg notNegative, String.toList_ofList, Int.natAbs_natCast]

/-- An integer is read back from what is written for it if that has no more digits than the
limit. -/
theorem read_write {n : Int} (few : (Nat.toDigits 10 n.natAbs).length ≤ digitLimit) :
    read (write n).toList = .ok n := by
  obtain ⟨sign, isSigned, written⟩ := write_eq n
  rw [written]
  exact isSigned.read_eq few

end Numeral

/-! ## Tokens -/

namespace Token

open Numeral

/-- The digits of a number spell a lexeme that holds it. -/
theorem spelled_toDigits (n : Nat) :
    (Lexeme.number (digitsOf n)).Spelled (Nat.toDigits 10 n) ∧
      (Lexeme.number (digitsOf n)).content? = some (.number, .number n) := by
  refine ⟨⟨Nat.toDigits_ne_nil, fun _ => isDigit_toDigits, (values_toDigits n).symm⟩, ?_⟩
  rw [Lexeme.content?, ofDigits_digitsOf]

/-- A number within the limit is written by a lexeme that is not too long. -/
theorem excess?_toDigits {n : Nat} (few : (Nat.toDigits 10 n).length ≤ digitLimit) :
    (Lexeme.number (digitsOf n)).excess? = none := by
  rw [Lexeme.excess?, length_digitsOf, if_neg (Nat.not_lt.mpr few)]

end Token

end LineBasic
