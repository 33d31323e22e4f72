import LineBasic.Proofs.Culprits

/-!
# The line that an error quotes

An error counts lines by line feeds and quotes the display line of that number. The two agree as
long as no other character breaks a display line. A further break above the culprit's line shifts
the count, and what is quoted then stands above that line. A further break on the line itself cuts
the quotation short, perhaps in front of the culprit. A carriage return in front of a line feed
makes no further break above the line; at the end of the line itself it is left out of the
quotation.
-/

namespace LineBasic

namespace Text

/-- Every break is a line feed, alone or behind a carriage return. -/
def breaksAtFeeds : List Char → Bool
  | [] => true
  | '\r' :: '\n' :: rest => breaksAtFeeds rest
  | c :: rest => (!isBreak c || c == '\n') && breaksAtFeeds rest

end Text

namespace Token

open Text

/-! ## Display lines -/

/-- The first display line reaches up to the first break. -/
theorem head?_displayLines {text : List Char} (filled : text ≠ []) :
    (displayLines text).head? = some (text.takeWhile fun c => !isBreak c) := by
  induction text using displayLines.induct with
  | case1 => exact absurd rfl filled
  | case2 rest inductionHypothesis => rfl
  | case3 c rest single breaks inductionHypothesis =>
    rw [displayLines.eq_3 c rest single, if_pos breaks]
    simp [breaks]
  | case4 c rest single inside inductionHypothesis =>
    rw [displayLines.eq_3 c rest single, if_neg inside, List.takeWhile_cons,
      if_pos (by simp [inside])]
    cases rest with
    | nil => rfl
    | cons d rest =>
      have first := inductionHypothesis (List.cons_ne_nil d rest)
      obtain ⟨lines, found⟩ := List.head?_eq_some_iff.mp first
      rw [found]
      rfl

/-- The first displayed line of a text that is not empty goes up to the first break. -/
theorem displayLines_eq_cons {text : List Char} (filled : text ≠ []) :
    ∃ others, displayLines text = (text.takeWhile fun c => !isBreak c) :: others :=
  List.head?_eq_some_iff.mp (head?_displayLines filled)

/-- No display line holds a break. -/
theorem displayLines_unbroken (text : List Char) :
    ∀ line ∈ displayLines text, ∀ c ∈ line, isBreak c = false := by
  induction text using displayLines.induct with
  | case1 => simp [displayLines]
  | case2 rest inductionHypothesis => simpa [displayLines] using inductionHypothesis
  | case3 c rest single breaks inductionHypothesis =>
    rw [displayLines.eq_3 c rest single, if_pos breaks]
    simpa using inductionHypothesis
  | case4 c rest single inside inductionHypothesis =>
    rw [displayLines.eq_3 c rest single, if_neg inside]
    cases lines : displayLines rest with
    | nil => simpa [consFirst] using inside
    | cons first others =>
      rw [lines] at inductionHypothesis
      simpa [consFirst, inside] using inductionHypothesis

/-- The display lines of an ended text come before those of what follows it. -/
theorem displayLines_append {text : List Char} (ended : Ended text) (more : List Char) :
    displayLines (text ++ more) = displayLines text ++ displayLines more := by
  induction text using displayLines.induct with
  | case1 => rfl
  | case2 rest inductionHypothesis =>
    rw [List.cons_append, List.cons_append, displayLines, displayLines,
      inductionHypothesis ended.tail.tail, List.cons_append]
  | case3 c rest single breaks inductionHypothesis =>
    have apart : c = '\r' → Front (fun d => d ≠ '\n') (rest ++ more) := by
      rintro rfl d isFirst rfl
      obtain ⟨e, after, rfl⟩ := List.exists_cons_of_ne_nil (ended.filled (by decide))
      cases isFirst
      exact single after rfl rfl
    rw [displayLines.eq_3 c rest single, if_pos breaks, List.cons_append, displayLines_cons apart,
      if_pos breaks, inductionHypothesis ended.tail, List.cons_append]
  | case4 c rest single inside inductionHypothesis =>
    have other : c ≠ '\r' ∧ c ≠ '\n' := by
      constructor
      · rintro rfl
        exact inside (by decide)
      · rintro rfl
        exact inside (by decide)
    obtain ⟨others, found⟩ := displayLines_eq_cons (ended.filled other.2)
    rw [displayLines.eq_3 c rest single, if_neg inside, List.cons_append,
      displayLines_cons fun isReturn => absurd isReturn other.1, if_neg inside,
      inductionHypothesis ended.tail, found]
    rfl

/-- An ended text has a display line for each line feed. -/
theorem count_le_displayLines {text : List Char} (ended : Ended text) :
    text.count '\n' ≤ (displayLines text).length := by
  rcases ended with rfl | isEnd
  · exact Nat.le_refl 0
  · obtain ⟨front, rfl⟩ := List.getLast?_eq_some_iff.mp isEnd
    rw [List.count_append, List.count_singleton_self]
    exact count_lt_displayLines front '\n' []

/-- It has no further one exactly if every break is at a line feed. -/
theorem length_displayLines_iff {text : List Char} (ended : Ended text) :
    (displayLines text).length = text.count '\n' ↔ breaksAtFeeds text = true := by
  induction text using displayLines.induct with
  | case1 => exact iff_of_true rfl rfl
  | case2 rest inductionHypothesis =>
    rw [displayLines, breaksAtFeeds, ← inductionHypothesis ended.tail.tail, List.length_cons,
      List.count_cons_of_ne (by decide), List.count_cons_self, Nat.add_right_cancel_iff]
  | case3 c rest single breaks inductionHypothesis =>
    rw [displayLines.eq_3 c rest single, if_pos breaks, breaksAtFeeds.eq_3 c rest single,
      List.length_cons]
    by_cases isFeed : c = '\n'
    · rw [isFeed, List.count_cons_self, Nat.add_right_cancel_iff, inductionHypothesis ended.tail]
      simp
    · have fewer := count_le_displayLines ended.tail
      rw [List.count_cons_of_ne isFeed]
      exact iff_of_false (by omega) (by simp [breaks, isFeed])
  | case4 c rest single inside inductionHypothesis =>
    have other : c ≠ '\n' := by
      rintro rfl
      exact inside (by decide)
    obtain ⟨others, found⟩ := displayLines_eq_cons (ended.filled other)
    have further := inductionHypothesis ended.tail
    rw [found] at further
    rw [displayLines.eq_3 c rest single, if_neg inside, breaksAtFeeds.eq_3 c rest single,
      List.count_cons_of_ne other, found]
    simpa [consFirst, inside] using further

/-! ## Quotations -/

section Quoted

variable {above line below quotation : List Char} (ended : Ended above)
  (isQuoted : (displayLines (above ++ (line ++ below)))[above.count '\n']? = some quotation)
include ended isQuoted

/-- If no further break stands above the line, the quotation is the line up to its first break. -/
theorem quotation_of_breaksAtFeeds (filled : line ≠ []) (closed : Front (fun c => c = '\n') below)
    (plain : breaksAtFeeds above = true) : quotation = line.takeWhile fun c => !isBreak c := by
  have feeds := (length_displayLines_iff ended).mpr plain
  have filledBoth : line ++ below ≠ [] := List.append_ne_nil_of_left_ne_nil filled below
  rw [displayLines_append ended, ← feeds, List.getElem?_append_right (Nat.le_refl _), Nat.sub_self,
    ← List.head?_eq_getElem?, head?_displayLines filledBoth] at isQuoted
  rw [← Option.some.inj isQuoted]
  cases below with
  | nil => rw [List.append_nil]
  | cons c below =>
    obtain rfl : c = '\n' := closed c rfl
    exact takeWhile_stop (by decide) line below

/-- Otherwise it is a display line of what stands above the line. -/
theorem quotation_of_not_breaksAtFeeds (broken : breaksAtFeeds above = false) :
    (displayLines above)[above.count '\n']? = some quotation := by
  have enough := count_le_displayLines ended
  have more : (displayLines above).length ≠ above.count '\n' := by
    rw [Ne, length_displayLines_iff ended, broken]
    decide
  rwa [displayLines_append ended, List.getElem?_append_left (by omega)] at isQuoted

/-- The quotation is the line exactly if the line holds no break, and either no further break
stands above it or the display line quoted from there happens to be the same. -/
theorem quotation_eq_iff (filled : line ≠ []) (closed : Front (fun c => c = '\n') below) :
    quotation = line ↔ (∀ c ∈ line, isBreak c = false) ∧
      (breaksAtFeeds above = true ∨ (displayLines above)[above.count '\n']? = some line) := by
  by_cases plain : breaksAtFeeds above = true
  · rw [quotation_of_breaksAtFeeds ended isQuoted filled closed plain, List.takeWhile_eq_self_iff]
    simp [plain]
  · have found := quotation_of_not_breaksAtFeeds ended isQuoted (by simpa using plain)
    constructor
    · rintro rfl
      exact ⟨displayLines_unbroken above _ (List.mem_of_getElem? found), .inr found⟩
    · rintro ⟨-, same⟩
      exact Option.some.inj (found.symm.trans (same.resolve_left plain))

end Quoted

/-- The line that an error quotes is not always that of the culprit. The culprit stands on a line
that is ended by a line feed or by the end of the text. If every break above that line is at a
line feed, the quotation is the line up to its first other break. If not, the quotation is a
display line of the text above. So the culprit's line is quoted, with the caret under the culprit,
exactly if that line holds no other break and either there is none above it or a display line
above it happens to be the same.

The quotation is the display line with the number of the culprit, counted from one. If all the
breaks above are at line feeds, the display has as many lines above as the text, and the quotation
begins where the line of the culprit does. Otherwise the display has more of them above, and the
quotation is one of those. -/
theorem scan_quotation {source : String} {culprit : Char} {line column : Nat}
    {quotation : List Char}
    (failed : scan source = .error (.unexpected culprit line column quotation)) :
    ∃ above left right below, source.toList = above ++ (left ++ culprit :: right ++ below) ∧
      Ended above ∧ '\n' ∉ left ++ culprit :: right ∧ Front (fun c => c = '\n') below ∧
      line = 1 + above.count '\n' ∧ column = left.length + 1 ∧
      (breaksAtFeeds above = true →
        quotation = (left ++ culprit :: right).takeWhile fun c => !isBreak c) ∧
      (breaksAtFeeds above = false → (displayLines above)[above.count '\n']? = some quotation) ∧
      (quotation = left ++ culprit :: right ∧ quotation[column - 1]? = some culprit ↔
        (∀ c ∈ left ++ culprit :: right, isBreak c = false) ∧
          (breaksAtFeeds above = true ∨
            (displayLines above)[above.count '\n']? = some (left ++ culprit :: right))) := by
  obtain ⟨lexemes, front, rest, cut, whole, stops⟩ := scan_eq_error_iff.mp failed
  cases stops.tells with
  | @unexpected _ behind above left _ isRest noLexeme isFront ended onLine isQuoted =>
    subst isRest isFront
    let right := behind.takeWhile (· != '\n')
    let below := behind.dropWhile (· != '\n')
    have isBehind : behind = right ++ below := List.takeWhile_append_dropWhile.symm
    have noFeed : culprit ≠ '\n' := by
      rintro rfl
      simp [lexeme?_newline] at noLexeme
    have onOwn : '\n' ∉ left ++ culprit :: right := by
      simp only [List.mem_append, List.mem_cons, not_or]
      refine ⟨onLine, noFeed.symm, fun member => ?_⟩
      have inside := List.mem_takeWhile_imp member
      simp at inside
    have closed : Front (fun c => c = '\n') below := by
      intro c first
      simpa using front_dropWhile (· != '\n') behind c first
    have split : above ++ left ++ culprit :: behind =
        above ++ (left ++ culprit :: right ++ below) := by
      rw [isBehind]
      simp
    have count : (above ++ left).count '\n' = above.count '\n' := by
      rw [List.count_append, List.count_eq_zero_of_not_mem onLine, Nat.add_zero]
    rw [split, count] at isQuoted
    have filled : left ++ culprit :: right ≠ [] := by simp
    refine ⟨above, left, right, below, whole.trans split, ended, onOwn, closed,
      congrArg (1 + ·) count, rfl, quotation_of_breaksAtFeeds ended isQuoted filled closed,
      quotation_of_not_breaksAtFeeds ended isQuoted, ?_⟩
    rw [← quotation_eq_iff ended isQuoted filled closed, and_iff_left_iff_imp]
    rintro rfl
    simp

/-- A carriage return at the end of a comment does not disturb the quotation of the next line. -/
theorem scan_quotation_return :
    let source := "10 REM a\r\n20 @"
    let quotation := ['2', '0', ' ', '@']
    scan source = .error (.unexpected '@' 2 4 quotation) ∧
      ∃ line below, source.toList = "10 REM a\r\n".toList ++ (line ++ below) ∧
        quotation = line ∧ quotation[4 - 1]? = some '@' := by
  intro source quotation
  have failed : scan source = .error (.unexpected '@' 2 4 quotation) := by decide +kernel
  obtain ⟨above, left, right, below, whole, ended, -, -, line, -, -, -, points⟩ :=
    scan_quotation failed
  have isAbove : above = "10 REM a\r\n".toList := by
    have only : ∀ n ≤ source.toList.length, (source.toList.take n).getLast? = some '\n' →
        source.toList.take n = "10 REM a\r\n".toList := by decide +kernel
    have isFirst : source.toList.take above.length = above := by rw [whole, List.take_left]
    rcases ended with rfl | last
    · simp at line
    · rw [← isFirst] at last ⊢
      exact only above.length (by rw [whole, List.length_append]; omega) last
  subst isAbove
  have plain : breaksAtFeeds "10 REM a\r\n".toList = true := by decide +kernel
  have unbroken : (source.toList.drop 10).any isBreak = false := by decide +kernel
  have isRest : source.toList.drop 10 = left ++ '@' :: right ++ below := by rw [whole]; rfl
  rw [isRest, List.any_append, Bool.or_eq_false_iff] at unbroken
  have onOwn : ∀ c ∈ left ++ '@' :: right, isBreak c = false := fun c member =>
    Bool.eq_false_iff.mpr (List.any_eq_false.mp unbroken.1 c member)
  obtain ⟨own, under⟩ := points.mpr ⟨onOwn, .inl plain⟩
  exact ⟨failed, left ++ '@' :: right, below, whole, own, under⟩

/-- A form feed in a comment makes the error on the next line quote the rest of the comment, which
is too short to hold anything above the caret. -/
theorem scan_quotation_formFeed :
    let source := "10 REM a\x0cb\n20 @"
    let error : ScanError := .unexpected '@' 2 4 ['b']
    scan source = .error error ∧ source = "10 REM a\x0cb\n" ++ "20 @" ∧
      ['b'] ≠ "20 @".toList ∧ ['b'][4 - 1]? ≠ some '@' ∧
      error.message =
        "\nErro léxico na linha 2, coluna 4:\n  b\n     ^\nCaractere inesperado: '@'" := by
  decide +kernel

end Token

end LineBasic
