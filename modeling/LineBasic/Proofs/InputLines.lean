import LineBasic.Machine.State

/-!
# The lines of an input text

An input text is read line by line, after its line breaks have been unified. A text that is
empty or ends in a line feed keeps its lines when more text is put behind it: no carriage
return of the first is paired with a line feed of the second, and no line reaches over the
end. So what is asked for first is answered by the first text, and the rest by the second.

Lines that hold neither line feeds nor carriage returns are read back as they were written,
whether or not the last of them has its line end.
-/

namespace LineBasic

namespace Text

/-- A text that ends with a line feed, if it is not empty. -/
def Ended (text : List Char) : Prop := text = [] ∨ text.getLast? = some '\n'

namespace Ended

variable {c : Char} {rest : List Char}

/-- What follows the first character ends in the same way. -/
theorem tail (ended : Ended (c :: rest)) : Ended rest := by
  rcases ended with none | last
  · cases none
  · cases rest with
    | nil => exact .inl rfl
    | cons d rest => exact .inr (by rwa [List.getLast?_cons_cons] at last)

/-- A character other than a line feed is not the last. -/
theorem filled (ended : Ended (c :: rest)) (inside : c ≠ '\n') : rest ≠ [] := by
  rintro rfl
  rcases ended with none | last
  · cases none
  · exact inside (Option.some.inj last)

/-- A character in front of an ended text changes nothing, and a line feed may stand alone. -/
theorem cons (ended : Ended rest) (alone : rest = [] → c = '\n') : Ended (c :: rest) := by
  rcases ended with rfl | last
  · exact .inr (congrArg some (alone rfl))
  · exact .inr (by rw [List.getLast?_cons, last]; rfl)

end Ended

/-! ## Unified line breaks -/

/-- A character that does not begin a pair of a carriage return and a line feed is replaced by
itself. -/
theorem unifyBreaks_cons {c : Char} {rest : List Char}
    (single : c = '\r' → rest.head? ≠ some '\n') :
    unifyBreaks (c :: rest) = (if c = '\r' then '\n' else c) :: unifyBreaks rest := by
  rw [unifyBreaks]
  rintro after rfl rfl
  exact single rfl rfl

/-- Unifying the line breaks leaves nothing only of an empty text. -/
theorem unifyBreaks_eq_nil {text : List Char} : unifyBreaks text = [] ↔ text = [] := by
  fun_cases unifyBreaks text <;> simp

/-- Line breaks are unified on both sides of a line feed separately. -/
theorem unifyBreaks_append {text : List Char} (ended : Ended text) (more : List Char) :
    unifyBreaks (text ++ more) = unifyBreaks text ++ unifyBreaks more := by
  fun_induction unifyBreaks text with
  | case1 => rfl
  | case2 rest inductionHypothesis =>
    rw [List.cons_append, List.cons_append, unifyBreaks, inductionHypothesis ended.tail.tail,
      List.cons_append]
  | case3 c rest unpaired inductionHypothesis =>
    have single : c = '\r' → (rest ++ more).head? ≠ some '\n' := by
      rintro rfl
      obtain ⟨d, after, rfl⟩ := List.exists_cons_of_ne_nil (ended.filled (by decide))
      intro paired
      obtain rfl : d = '\n' := Option.some.inj paired
      exact unpaired after rfl rfl
    rw [List.cons_append, unifyBreaks_cons single, inductionHypothesis ended.tail,
      List.cons_append]

/-- The last line keeps its end. -/
theorem Ended.unifyBreaks {text : List Char} (ended : Ended text) : Ended (unifyBreaks text) := by
  fun_induction Text.unifyBreaks text with
  | case1 => exact ended
  | case2 rest inductionHypothesis =>
    exact (inductionHypothesis ended.tail.tail).cons fun _ => rfl
  | case3 c rest unpaired inductionHypothesis =>
    refine (inductionHypothesis ended.tail).cons fun nothing => ?_
    by_cases isReturn : c = '\r'
    · rw [if_pos isReturn]
    · rw [if_neg isReturn]
      exact Decidable.byContradiction fun inside =>
        ended.filled inside (unifyBreaks_eq_nil.mp nothing)

/-- Without carriage returns there is nothing to unify. -/
theorem unifyBreaks_eq_self {text : List Char} (none : '\r' ∉ text) : unifyBreaks text = text := by
  induction text with
  | nil => rfl
  | cons c rest inductionHypothesis =>
    have other : c ≠ '\r' := (List.ne_of_not_mem_cons none).symm
    rw [unifyBreaks_cons fun same => absurd same other, if_neg other,
      inductionHypothesis (List.not_mem_of_not_mem_cons none)]

/-! ## Lines -/

/-- A text that is not empty has a line. -/
theorem feedLines_ne_nil {text : List Char} (filled : text ≠ []) : feedLines text ≠ [] := by
  cases text with
  | nil => exact absurd rfl filled
  | cons c rest =>
    rw [feedLines]
    split
    · exact List.cons_ne_nil _ _
    · unfold consFirst
      split <;> exact List.cons_ne_nil _ _

/-- The lines of an ended text come before those of what follows it. -/
theorem feedLines_append {text : List Char} (ended : Ended text) (more : List Char) :
    feedLines (text ++ more) = feedLines text ++ feedLines more := by
  induction text with
  | nil => rfl
  | cons c rest inductionHypothesis =>
    rw [List.cons_append, feedLines, feedLines, inductionHypothesis ended.tail]
    split
    · rfl
    · next inside =>
      have hasLine := feedLines_ne_nil (ended.filled inside)
      obtain ⟨line, lines, isFirst⟩ := List.exists_cons_of_ne_nil hasLine
      rw [isFirst]
      rfl

/-- A line is read up to its end. -/
theorem feedLines_line {line : List Char} (onLine : '\n' ∉ line) (rest : List Char) :
    feedLines (line ++ '\n' :: rest) = line :: feedLines rest := by
  induction line with
  | nil => simp [feedLines]
  | cons c line inductionHypothesis =>
    have other : c ≠ '\n' := (List.ne_of_not_mem_cons onLine).symm
    rw [List.cons_append, feedLines, if_neg other,
      inductionHypothesis (List.not_mem_of_not_mem_cons onLine)]
    rfl

/-- The last line needs no end. -/
theorem feedLines_last {line : List Char} (onLine : '\n' ∉ line) (filled : line ≠ []) :
    feedLines line = [line] := by
  induction line with
  | nil => exact absurd rfl filled
  | cons c rest inductionHypothesis =>
    have other : c ≠ '\n' := (List.ne_of_not_mem_cons onLine).symm
    rw [feedLines, if_neg other]
    cases rest with
    | nil => rfl
    | cons d rest =>
      rw [inductionHypothesis (List.not_mem_of_not_mem_cons onLine) (List.cons_ne_nil d rest)]
      rfl

/-- Lines are read back as they were written, each with its end. -/
theorem feedLines_lines {lines : List (List Char)} (onLine : ∀ line ∈ lines, '\n' ∉ line)
    (rest : List Char) :
    feedLines (lines.flatMap (· ++ ['\n']) ++ rest) = lines ++ feedLines rest := by
  induction lines with
  | nil => rfl
  | cons line lines inductionHypothesis =>
    obtain ⟨here, others⟩ := List.forall_mem_cons.mp onLine
    rw [List.flatMap_cons, List.append_assoc, List.append_assoc, List.singleton_append,
      feedLines_line here, inductionHypothesis others, List.cons_append]

/-- The text holds the lines one after another, and the last of them may lack its end. -/
def OnePerLine (lines : List String) (text : String) : Prop :=
  text = String.join (lines.map (· ++ "\n")) ∨
    ∃ front last, lines = front ++ [last] ∧ text = String.join (front.map (· ++ "\n")) ++ last

/-- The characters of lines written one after another, each with its end. -/
theorem toList_lines (lines : List String) : (String.join (lines.map (· ++ "\n"))).toList =
    (lines.map String.toList).flatMap (· ++ ['\n']) := by
  simp [String.toList_join, List.flatMap_map]

/-- A text that holds lines is made of their characters and of line ends. -/
theorem OnePerLine.mem {text : String} {lines : List String} {c : Char}
    (written : OnePerLine lines text) (member : c ∈ text.toList) :
    c = '\n' ∨ ∃ line ∈ lines, c ∈ line.toList := by
  have among {lines : List String} (member : c ∈ (String.join (lines.map (· ++ "\n"))).toList) :
      c = '\n' ∨ ∃ line ∈ lines, c ∈ line.toList := by
    simp only [toList_lines, List.mem_flatMap, List.mem_map, List.mem_append,
      List.mem_singleton] at member
    obtain ⟨_, ⟨line, isLine, rfl⟩, inside | isEnd⟩ := member
    · exact .inr ⟨line, isLine, inside⟩
    · exact .inl isEnd
  rcases written with rfl | ⟨front, last, rfl, rfl⟩
  · exact among member
  · rw [String.toList_append, List.mem_append] at member
    rcases member with early | late
    · refine (among early).imp_right ?_
      rintro ⟨line, isLine, inside⟩
      exact ⟨line, List.mem_append_left _ isLine, inside⟩
    · exact .inr ⟨last, List.mem_append_right _ (List.mem_singleton_self last), late⟩

end Text

namespace Machine.Feed

/-- What follows an ended text gives the replies that follow those of the text. -/
theorem ofText_append {text : String} (ended : Text.Ended text.toList) (more : String) :
    ofText (text ++ more) = ⟨(ofText text).replies ++ (ofText more).replies, .endOfInput⟩ := by
  unfold ofText
  rw [String.toList_append, Text.unifyBreaks_append ended, Text.feedLines_append ended.unifyBreaks,
    List.map_append]

/-- The lines that a text holds are the replies that it gives. -/
theorem ofText_onePerLine {text : String} {lines : List String}
    (written : Text.OnePerLine lines text) (filled : ∀ line ∈ lines, line ≠ "")
    (unbroken : ∀ line ∈ lines, '\n' ∉ line.toList ∧ '\r' ∉ line.toList) :
    ofText text = ⟨lines.map fun line => reply line.toList, .endOfInput⟩ := by
  have noReturn : '\r' ∉ text.toList := by
    intro member
    rcases written.mem member with isEnd | ⟨line, isLine, inside⟩
    · cases isEnd
    · exact (unbroken line isLine).2 inside
  have onLine : ∀ line ∈ lines.map String.toList, '\n' ∉ line :=
    List.forall_mem_map.mpr fun line isLine => (unbroken line isLine).1
  have read : Text.feedLines text.toList = lines.map String.toList := by
    rcases written with rfl | ⟨front, last, rfl, rfl⟩
    · have ended := Text.feedLines_lines onLine []
      rwa [List.append_nil, Text.feedLines, List.append_nil, ← Text.toList_lines] at ended
    · rw [List.map_append] at onLine
      obtain ⟨early, late⟩ := List.forall_mem_append.mp onLine
      have isLast : last ∈ front ++ [last] := List.mem_append_right _ (List.mem_singleton_self last)
      have lastFilled : last.toList ≠ [] := fun nothing =>
        filled last isLast (String.toList_eq_nil_iff.mp nothing)
      rw [String.toList_append, Text.toList_lines, Text.feedLines_lines early,
        Text.feedLines_last (unbroken last isLast).1 lastFilled, List.map_append]
      rfl
  rw [ofText, Text.unifyBreaks_eq_self noReturn, read, List.map_map]
  rfl

end Machine.Feed

end LineBasic
