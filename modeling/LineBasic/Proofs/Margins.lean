import LineBasic.Proofs.Spelling
import Mathlib.Data.List.DropRight

/-!
# Blanks around numerals

A numeral is read whether or not blanks surround it. Trimming an answer takes the blanks away
beforehand, and takes more of them than a numeral may have around it: the information
separators of ASCII are blank, but no margin of a numeral. This makes no difference to a text
that is read as an integer. Such a text is made of margins, a sign, digits and underscores,
none but the margins is blank, and so it loses margins only.
-/

namespace LineBasic

/-! ## Trimming -/

namespace Text

/-- Trimming takes away blanks and nothing else. -/
theorem trim_split (text : List Char) :
    ∃ left right, text = left ++ trim text ++ right ∧ (∀ c ∈ left, isBlank c = true) ∧
      ∀ c ∈ right, isBlank c = true := by
  let middle := text.dropWhile isBlank
  let right := (middle.reverse.takeWhile isBlank).reverse
  have kept : middle = trim text ++ right := by
    rw [trim, ← List.reverse_append, List.takeWhile_append_dropWhile, List.reverse_reverse]
  refine ⟨text.takeWhile isBlank, right, ?_, ?_, ?_⟩
  · rw [List.append_assoc, ← kept, List.takeWhile_append_dropWhile]
  · exact fun c member => List.mem_takeWhile_imp member
  · exact fun c member => List.mem_takeWhile_imp (List.mem_reverse.mp member)

/-- What is trimmed already stays as it is. -/
theorem trim_trim (text : List Char) : trim (trim text) = trim text := by
  have behind : (trim text).reverse = (text.dropWhile isBlank).reverse.dropWhile isBlank :=
    List.reverse_reverse _
  -- What trimming leaves begins as the text does without its blanks in front.
  have begins : trim text <+: text.dropWhile isBlank := by
    rw [← List.reverse_suffix, behind]
    exact List.dropWhile_suffix isBlank
  have front : (trim text).dropWhile isBlank = trim text := by
    cases trimmed : trim text with
    | nil => rfl
    | cons c rest =>
      have noBlank := Token.front_dropWhile isBlank text
      obtain ⟨after, whole⟩ := begins
      rw [← whole, trimmed] at noBlank
      exact List.dropWhile_cons_of_neg (Bool.not_eq_true _ ▸ noBlank c rfl)
  rw [trim, front, behind, List.dropWhile_idempotent, ← behind, List.reverse_reverse]

/-- Trimming takes away all the blanks around a text that has none. -/
theorem trim_surrounded {left core right : List Char} (before : ∀ c ∈ left, isBlank c = true)
    (inside : ∀ c ∈ core, isBlank c = false) (after : ∀ c ∈ right, isBlank c = true) :
    trim (left ++ core ++ right) = core := by
  have behind : ∀ c ∈ right.reverse, isBlank c = true := fun c member =>
    after c (List.mem_reverse.mp member)
  have noneBehind : ∀ c ∈ core.reverse, isBlank c = false := fun c member =>
    inside c (List.mem_reverse.mp member)
  rw [trim, List.append_assoc, List.dropWhile_append_of_pos before, List.dropWhile_append,
    Token.dropWhile_eq_self inside]
  cases core with
  | nil =>
    rw [List.isEmpty_nil, if_pos rfl, List.dropWhile_eq_nil_iff.mpr after]
    rfl
  | cons c core =>
    rw [List.isEmpty_cons, if_neg (by decide), List.reverse_append,
      List.dropWhile_append_of_pos behind, Token.dropWhile_eq_self noneBehind,
      List.reverse_reverse]

/-- No digit is blank. -/
theorem isBlank_of_isDigit {c : Char} (digit : isDigit c = true) : isBlank c = false := by
  have apart : ∀ first ∈ digitZeros, ∀ range ∈ blankRanges,
      range.2 < first ∨ first + 10 ≤ range.1 := by
    decide
  rw [isDigit, digit?, Option.isSome_map, List.find?_isSome] at digit
  obtain ⟨first, isZero, near⟩ := digit
  rw [isBlank, List.any_eq_false]
  intro range isRange inside
  simp only [Bool.and_eq_true, decide_eq_true_eq] at near inside
  rcases apart first isZero range isRange with below | above
  · omega
  · omega

end Text

/-! ## Numerals -/

namespace Numeral

open Text

/-- A run of digits holds no blanks. -/
theorem isBlank_of_inRun {c : Char} (run : inRun c = true) : isBlank c = false := by
  rw [inRun, Bool.or_eq_true, beq_iff_eq] at run
  rcases run with digit | rfl
  · exact isBlank_of_isDigit digit
  · decide

/-- Margins do not continue a run of digits. -/
theorem inRun_of_isMargin {c : Char} (margin : isMargin c = true) : inRun c = false := by
  by_contra run
  have blank := (Bool.and_eq_true_iff.mp margin).1
  rw [isBlank_of_inRun (Bool.not_eq_false _ ▸ run)] at blank
  cases blank

/-- A sign is separated before anything is put behind the text. -/
theorem splitSign_append {text : List Char} (filled : text ≠ []) (rest : List Char) :
    splitSign (text ++ rest) = ((splitSign text).1, (splitSign text).2 ++ rest) := by
  obtain ⟨c, text, rfl⟩ := List.exists_cons_of_ne_nil filled
  by_cases minus : c = '-'
  · rw [minus]
    rfl
  · by_cases plus : c = '+'
    · rw [plus]
      rfl
    · have unsigned (rest : List Char) : splitSign (c :: rest) = (false, c :: rest) := by
        simp [splitSign, minus, plus]
      rw [List.cons_append, unsigned, unsigned, List.cons_append]

/-- Characters outside a run do not change it, and are left over with what it leaves. -/
theorem run_append {right : List Char} (body : List Char) (outside : ∀ c ∈ right, inRun c = false) :
    (body ++ right).takeWhile inRun = body.takeWhile inRun ∧
      (body ++ right).dropWhile inRun = body.dropWhile inRun ++ right := by
  have inside : ∀ c ∈ body.takeWhile inRun, inRun c = true := fun c => List.mem_takeWhile_imp
  have ends : Token.Front (fun c => inRun c = false) (body.dropWhile inRun ++ right) := by
    have left := Token.front_dropWhile inRun body
    cases rest : body.dropWhile inRun with
    | nil => exact fun c first => outside c (List.mem_of_mem_head? first)
    | cons c rest' =>
      rw [rest] at left
      exact left
  have taken : (body ++ right).takeWhile inRun = body.takeWhile inRun := by
    have run := Token.takeWhile_run inside ends
    rwa [← List.append_assoc, List.takeWhile_append_dropWhile] at run
  have whole : body.takeWhile inRun ++ (body ++ right).dropWhile inRun =
      body.takeWhile inRun ++ (body.dropWhile inRun ++ right) := by
    rw [← List.append_assoc, List.takeWhile_append_dropWhile, ← taken,
      List.takeWhile_append_dropWhile]
  exact ⟨taken, List.append_cancel_left whole⟩

/-- A text is read in the same way when margins surround it. -/
theorem read_margins {left right : List Char} (core : List Char)
    (before : ∀ c ∈ left, isMargin c = true) (after : ∀ c ∈ right, isMargin c = true) :
    read (left ++ core ++ right) = read core := by
  have noRun : ∀ c ∈ right, inRun c = false := fun c member => inRun_of_isMargin (after c member)
  unfold read
  rw [List.append_assoc, List.dropWhile_append_of_pos before, List.dropWhile_append]
  by_cases nothing : core.dropWhile isMargin = []
  · have blank : right.dropWhile isMargin = [] := List.dropWhile_eq_nil_iff.mpr after
    rw [nothing, List.isEmpty_nil, if_pos rfl, blank]
  · rw [if_neg (by simpa using nothing), splitSign_append nothing]
    generalize splitSign (core.dropWhile isMargin) = split
    obtain ⟨negative, body⟩ := split
    obtain ⟨taken, dropped⟩ := run_append body noRun
    have margins : right.all isMargin = true := List.all_eq_true.mpr after
    simp only [taken, dropped, List.all_append, margins, Bool.and_true]

/-- A sign is what stands in front of the digits. -/
theorem splitSign_eq (text : List Char) :
    ∃ sign, text = sign ++ (splitSign text).2 ∧ ∀ c ∈ sign, c = '+' ∨ c = '-' := by
  fun_cases splitSign text with
  | case1 rest => exact ⟨['-'], rfl, by simp⟩
  | case2 rest => exact ⟨['+'], rfl, by simp⟩
  | case3 => exact ⟨[], rfl, by simp⟩

/-- What a text is made of that is read as an integer. -/
theorem mem_of_read {text : List Char} {n : Int} (accepted : read text = .ok n) :
    ∀ c ∈ text, isMargin c = true ∨ c = '+' ∨ c = '-' ∨ inRun c = true := by
  intro c member
  obtain ⟨sign, signed, signs⟩ := splitSign_eq (text.dropWhile isMargin)
  unfold read at accepted
  generalize splitSign (text.dropWhile isMargin) = split at signed accepted
  obtain ⟨negative, body⟩ := split
  dsimp only at signed accepted
  have after : (body.dropWhile inRun).all isMargin = true := by
    split at accepted
    · cases accepted
    · split at accepted
      · cases accepted
      · split at accepted
        · assumption
        · cases accepted
  rw [← List.takeWhile_append_dropWhile (p := isMargin) (l := text), signed,
    ← List.takeWhile_append_dropWhile (p := inRun) (l := body)] at member
  simp only [List.mem_append] at member
  rcases member with margin | isSign | run | margin
  · exact .inl (List.mem_takeWhile_imp margin)
  · exact .inr ((signs c isSign).imp_right .inl)
  · exact .inr (.inr (.inr (List.mem_takeWhile_imp run)))
  · exact .inl (List.all_eq_true.mp after c margin)

/-- A text that is read as an integer is read as the same one after trimming, and it holds no
point. -/
theorem read_trim {text : List Char} {n : Int} (accepted : read text = .ok n) :
    read (trim text) = .ok n ∧ '.' ∉ trim text := by
  have marks := mem_of_read accepted
  have margin {c : Char} (member : c ∈ text) (blank : isBlank c = true) : isMargin c = true := by
    rcases marks c member with margin | rfl | rfl | run
    · exact margin
    · exact absurd blank (by decide)
    · exact absurd blank (by decide)
    · rw [isBlank_of_inRun run] at blank
      cases blank
  obtain ⟨left, right, whole, before, after⟩ := trim_split text
  have inside (c : Char) (among : c ∈ left ∨ c ∈ trim text ∨ c ∈ right) : c ∈ text := by
    rw [whole]
    simpa [or_assoc] using among
  have inFront : ∀ c ∈ left, isMargin c = true := fun c member =>
    margin (inside c (.inl member)) (before c member)
  have behind : ∀ c ∈ right, isMargin c = true := fun c member =>
    margin (inside c (.inr (.inr member))) (after c member)
  constructor
  · rw [← read_margins (trim text) inFront behind, ← whole]
    exact accepted
  · intro point
    exact absurd (marks '.' (inside '.' (.inr (.inl point)))) (by decide)

end Numeral

end LineBasic
