import LineBasic.Proofs.Cutting

/-!
# Scanning line by line

A line end cuts a source text in two that are scanned by themselves: no lexeme reaches over
it, and none in front of it looks past it. So the tokens of the whole are those in front of
the line end, the line end, and those behind it, moved by the lines and characters in front
of them. Only the last token of the first part goes, which ends that text.

Scanning fails if it fails on either part. An error in front of the line end is the same in
the whole text, and one behind it is moved. It may then quote another line: lines are counted
by line feeds, but quoted as they are displayed, and other characters break those lines as
well. There are never fewer lines to quote than line feeds, so the line to be quoted exists.
-/

namespace LineBasic.Token

open Text

/-! ## Lexemes in front of a line end -/

/-- A run that stops at a character does not depend on what stands behind that. -/
theorem takeWhile_stop {test : Char → Bool} {c : Char} (stops : test c = false)
    (text rest : List Char) : (text ++ c :: rest).takeWhile test = text.takeWhile test := by
  induction text with
  | nil => simp [stops]
  | cons d text inductionHypothesis =>
    rw [List.cons_append, List.takeWhile_cons, List.takeWhile_cons, inductionHypothesis]

/-- What the first character has to satisfy may be tested in front of a line end that
satisfies it. -/
theorem front_newline_iff (test : Char → Prop) (passes : test '\n') (text rest : List Char) :
    Front test (text ++ '\n' :: rest) ↔ Front test text := by
  cases text with
  | nil => simp [Front, passes]
  | cons c text => rfl

/-- A word without line ends behind its first letter does not reach over one. -/
theorem prefix_newline_iff {word text : List Char} (onLine : '\n' ∉ word.tail) (filled : text ≠ [])
    (rest : List Char) : word <+: text ++ '\n' :: rest ↔ word <+: text := by
  constructor
  · intro begins
    rcases List.prefix_or_prefix_of_prefix begins (List.prefix_append text ('\n' :: rest)) with
      inside | ⟨beyond, rfl⟩
    · exact inside
    · cases beyond with
      | nil => exact (List.append_nil text).symm ▸ List.prefix_rfl
      | cons c beyond =>
        rw [List.prefix_append_right_inj, List.cons_prefix_cons] at begins
        obtain ⟨rfl, -⟩ := begins
        rw [List.tail_append_of_ne_nil filled] at onLine
        exact absurd (List.mem_append_right _ List.mem_cons_self) onLine
  · intro begins
    exact begins.trans (List.prefix_append text _)

/-- No reserved word or sign has a line end behind its first character. -/
theorem fixed_onLine : ∀ entry ∈ fixedSpellings, '\n' ∉ entry.2.tail := by decide

/-- Whether a lexeme ends does not depend on what stands behind the next line end. -/
theorem Lexeme.Ends.newline_iff {lexeme : Lexeme} {spelling : List Char}
    (spelled : lexeme.Spelled spelling) (after rest : List Char) :
    lexeme.Ends (after ++ '\n' :: rest) ↔ lexeme.Ends after := by
  cases lexeme with
  | blanks count => exact front_newline_iff (fun c => isSpace c = false) (by decide) after rest
  | number digits => exact front_newline_iff (fun c => isDigit c = false) (by decide) after rest
  | remark body => exact front_newline_iff (fun c => c = '\n') rfl after rest
  | string body => exact Iff.rfl
  | fixed kind spelling =>
    have filled : spelling ++ after ≠ [] := fun nothing =>
      spelling_ne_nil _ spelled.1 (List.append_eq_nil_iff.mp nothing).1
    apply forall₂_congr
    intro entry member
    rw [← List.append_assoc, prefix_newline_iff (fixed_onLine entry member) filled]
  | identifier letter =>
    have filled : letter :: after ≠ [] := List.cons_ne_nil _ _
    apply and_congr
    · apply forall₂_congr
      intro entry member
      rw [← List.cons_append, prefix_newline_iff (fixed_onLine entry member) filled]
    · rw [← List.cons_append, prefix_newline_iff (by decide) filled]

/-- A lexeme that stands at the front of a text ends before the line end behind the text. -/
theorem Lexeme.Spelled.within {lexeme : Lexeme} {spelling after text rest : List Char}
    (spelled : lexeme.Spelled spelling) (whole : text ++ '\n' :: rest = spelling ++ after)
    (filled : text ≠ []) :
    ∃ behind, text = spelling ++ behind ∧ after = behind ++ '\n' :: rest := by
  have onLine : '\n' ∉ spelling.tail := by
    rcases spelled.oneLine with ⟨-, rfl⟩ | ⟨-, none⟩
    · exact List.not_mem_nil
    · exact fun member => none (List.mem_of_mem_tail member)
  have begins : spelling <+: text ++ '\n' :: rest := ⟨after, whole.symm⟩
  obtain ⟨behind, rfl⟩ := (prefix_newline_iff onLine filled rest).mp begins
  rw [List.append_assoc] at whole
  exact ⟨behind, rfl, (List.append_cancel_left whole).symm⟩

/-- Which lexeme stands at the front of a text does not depend on what follows the next line
end. -/
theorem lexeme?_append_newline {text : List Char} (filled : text ≠ []) (rest : List Char) :
    lexeme? (text ++ '\n' :: rest) = lexeme? text := by
  apply Option.ext
  intro lexeme
  rw [lexeme?_eq_some_iff, lexeme?_eq_some_iff]
  constructor
  · rintro ⟨spelling, after, whole, spelled, ends⟩
    obtain ⟨behind, rfl, rfl⟩ := spelled.within whole filled
    exact ⟨spelling, behind, rfl, spelled, (Lexeme.Ends.newline_iff spelled behind rest).mp ends⟩
  · rintro ⟨spelling, after, rfl, spelled, ends⟩
    refine ⟨spelling, after ++ '\n' :: rest, List.append_assoc .., spelled, ?_⟩
    exact (Lexeme.Ends.newline_iff spelled after rest).mpr ends

namespace Cuts

variable {text rest : List Char} {lexemes : List Lexeme}

/-- A text is cut in front of a line end as it is by itself. -/
theorem append_newline (cut : Cuts text lexemes rest) (behind : List Char) :
    Cuts (text ++ '\n' :: behind) lexemes (rest ++ '\n' :: behind) := by
  induction cut with
  | done text => exact .done _
  | @lexeme text rest first others found short further inductionHypothesis =>
    have filled : text ≠ [] := by
      rintro rfl
      cases found
    refine .lexeme ((lexeme?_append_newline filled behind).trans found) short ?_
    rwa [List.drop_append_of_le_length (lexeme?_length found).2]

/-- What is cut off stands in front of what is left, and has the characters and line ends of
the lexemes. -/
theorem front (cut : Cuts text lexemes rest) :
    ∃ front, text = front ++ rest ∧ front.length = extent lexemes ∧
      front.count '\n' = lineEnds lexemes := by
  induction cut with
  | done text => exact ⟨[], rfl, rfl, rfl⟩
  | lexeme found short further inductionHypothesis =>
    obtain ⟨spelling, after, rfl, spelled, -⟩ := lexeme?_eq_some_iff.mp found
    rw [spelled.length_eq, List.drop_left] at inductionHypothesis
    obtain ⟨front, rfl, length, count⟩ := inductionHypothesis
    refine ⟨spelling ++ front, (List.append_assoc ..).symm, ?_, ?_⟩
    · rw [List.length_append, length, extent, spelled.length_eq]
    · rw [List.count_append, count, lineEnds, spelled.lineEnds_eq]

/-- A line end is cut off, and what follows it is cut by itself. -/
theorem newline (cut : Cuts text lexemes rest) :
    Cuts ('\n' :: text) (.fixed .newline ['\n'] :: lexemes) rest :=
  .lexeme (lexeme?_newline text) rfl cut

end Cuts

/-! ## Quoted lines and columns -/

/-- The first character breaks the display line or belongs to it, but a carriage return is one
break together with a line feed behind it. -/
theorem displayLines_cons {c : Char} {rest : List Char}
    (apart : c = '\r' → Front (fun d => d ≠ '\n') rest) :
    displayLines (c :: rest) =
      if isBreak c then [] :: displayLines rest else consFirst c (displayLines rest) := by
  apply displayLines.eq_3
  rintro others isReturn rfl
  exact apart isReturn '\n' rfl rfl

/-- A line feed breaks the display line. -/
theorem displayLines_newline (rest : List Char) :
    displayLines ('\n' :: rest) = [] :: displayLines rest := by
  rw [displayLines_cons fun isReturn => absurd isReturn (by decide), if_pos (by decide)]

/-- A text with a first character has a line, and no fewer than without that character. -/
theorem length_displayLines_cons (c : Char) (text : List Char) :
    0 < (displayLines (c :: text)).length ∧
      (displayLines text).length ≤ (displayLines (c :: text)).length := by
  by_cases pair : c = '\r' ∧ ∃ rest, text = '\n' :: rest
  · obtain ⟨rfl, rest, rfl⟩ := pair
    rw [displayLines_newline, displayLines]
    exact ⟨Nat.succ_pos _, Nat.le_refl _⟩
  · have apart : c = '\r' → Front (fun d => d ≠ '\n') text := by
      rintro isReturn d isFirst rfl
      exact pair ⟨isReturn, List.head?_eq_some_iff.mp isFirst⟩
    rw [displayLines_cons apart]
    split
    · exact ⟨Nat.succ_pos _, Nat.le_succ _⟩
    · cases displayLines text with
      | nil => exact ⟨Nat.succ_pos _, Nat.zero_le _⟩
      | cons line lines => exact ⟨Nat.succ_pos _, Nat.le_refl _⟩

/-- In front of a character there are fewer line feeds than the text has display lines. -/
theorem count_lt_displayLines (front : List Char) (c : Char) (back : List Char) :
    front.count '\n' < (displayLines (front ++ c :: back)).length := by
  induction front with
  | nil => exact (length_displayLines_cons c back).1
  | cons d front inductionHypothesis =>
    by_cases isFeed : d = '\n'
    · subst isFeed
      rw [List.count_cons_self, List.cons_append, displayLines_newline]
      exact Nat.succ_lt_succ inductionHypothesis
    · rw [List.count_cons_of_ne isFeed, List.cons_append]
      exact Nat.lt_of_lt_of_le inductionHypothesis (length_displayLines_cons d _).2

/-- The display lines of a text are the first ones of every text that continues it behind a
line feed. The induction follows the breaks of the text. -/
theorem displayLines_prefix (text behind : List Char) :
    displayLines text <+: displayLines (text ++ '\n' :: behind) := by
  induction text using displayLines.induct with
  | case1 => exact List.nil_prefix
  | case2 rest inductionHypothesis =>
    rw [List.cons_append, List.cons_append, displayLines, displayLines, List.cons_prefix_cons]
    exact ⟨rfl, inductionHypothesis⟩
  | case3 c rest single breaks inductionHypothesis =>
    rw [displayLines.eq_3 c rest single, if_pos breaks, List.cons_append]
    -- Only a carriage return at the very end is one break with the line feed behind it.
    by_cases pair : c = '\r' ∧ rest = []
    · obtain ⟨rfl, rfl⟩ := pair
      exact List.cons_prefix_cons.mpr ⟨rfl, List.nil_prefix⟩
    · have apart : c = '\r' → Front (fun d => d ≠ '\n') (rest ++ '\n' :: behind) := by
        rintro isReturn d isFirst rfl
        cases rest with
        | nil => exact pair ⟨isReturn, rfl⟩
        | cons e rest =>
          cases isFirst
          exact single rest isReturn rfl
      rw [displayLines_cons apart, if_pos breaks, List.cons_prefix_cons]
      exact ⟨rfl, inductionHypothesis⟩
  | case4 c rest single inside inductionHypothesis =>
    have other : c ≠ '\r' := by
      rintro rfl
      exact inside (by decide)
    rw [displayLines.eq_3 c rest single, if_neg inside, List.cons_append,
      displayLines_cons fun isReturn => absurd isReturn other, if_neg inside]
    cases rest with
    | nil =>
      rw [List.nil_append, displayLines_newline]
      exact List.cons_prefix_cons.mpr ⟨rfl, List.nil_prefix⟩
    | cons d rest =>
      obtain ⟨line, lines, found⟩ :=
        List.exists_cons_of_length_pos (length_displayLines_cons d rest).1
      obtain ⟨further, whole⟩ := inductionHypothesis
      rw [← whole, found]
      exact ⟨further, rfl⟩

/-- The column of a place is counted in the text in front of it. -/
theorem columnAt_append (front rest : List Char) :
    columnAt (front ++ rest) front.length = columnAt front front.length := by
  rw [columnAt, columnAt, List.take_left, List.take_length]

/-- Columns begin anew behind a line end. -/
theorem columnAt_newline (before front : List Char) :
    columnAt (before ++ '\n' :: front) (before ++ '\n' :: front).length =
      columnAt front front.length := by
  have backwards : (before ++ '\n' :: front).reverse = front.reverse ++ '\n' :: before.reverse := by
    simp
  rw [columnAt, columnAt, List.take_length, List.take_length, backwards, takeWhile_stop (by decide)]

/-- The line of a place in the text can be quoted, and the error for the place does so. -/
theorem ScanError.at_eq (front : List Char) (culprit c : Char) (back : List Char) :
    ∃ quotation, (displayLines (front ++ c :: back))[front.count '\n']? = some quotation ∧
      ScanError.at (front ++ c :: back) culprit (1 + front.count '\n') front.length =
        .unexpected culprit (1 + front.count '\n') (columnAt front front.length) quotation := by
  have exists_line := List.getElem?_eq_getElem (count_lt_displayLines front c back)
  refine ⟨_, exists_line, ?_⟩
  rw [ScanError.at, Nat.add_sub_cancel_left, exists_line, columnAt_append]

/-! ## Places that scanning does not get past -/

/-- The same error, on a line that is further down by a number of lines, with which it may
quote another line. -/
inductive ScanError.Moved (lines : Nat) : ScanError → ScanError → Prop where
  | unexpected (culprit : Char) (line column : Nat) (quotation other : List Char) :
      Moved lines (.unexpected culprit line column quotation)
        (.unexpected culprit (line + lines) column other)
  | tooManyDigits (count : Nat) : Moved lines (.tooManyDigits count) (.tooManyDigits count)

namespace Stops

variable {front rest : List Char} {error : ScanError}

/-- What follows the next line end does not change the error. -/
theorem append_newline
    (stops : Stops (front ++ rest) front.length (1 + front.count '\n') rest error)
    (behind : List Char) :
    Stops (front ++ (rest ++ '\n' :: behind)) front.length (1 + front.count '\n')
      (rest ++ '\n' :: behind) error := by
  cases stops with
  | @strange c rest none =>
    obtain ⟨quotation, found, isError⟩ := ScanError.at_eq front c c rest
    obtain ⟨other, otherFound, otherError⟩ := ScanError.at_eq front c c (rest ++ '\n' :: behind)
    have same : other = quotation := by
      obtain ⟨further, whole⟩ := displayLines_prefix (front ++ c :: rest) behind
      rw [List.append_assoc, List.cons_append] at whole
      rw [← whole, List.getElem?_append_left (count_lt_displayLines front c rest), found]
        at otherFound
      exact (Option.some.inj otherFound).symm
    rw [isError, ← same, ← otherError]
    exact .strange ((lexeme?_append_newline (List.cons_ne_nil c rest) behind).trans none)
  | long found tooMany =>
    have filled : rest ≠ [] := by
      rintro rfl
      cases found
    exact .long ((lexeme?_append_newline filled behind).trans found) tooMany

/-- Behind a line end the error is moved. -/
theorem moved (stops : Stops (front ++ rest) front.length (1 + front.count '\n') rest error)
    (before : List Char) :
    ∃ other, error.Moved (1 + before.count '\n') other ∧
      Stops (before ++ '\n' :: (front ++ rest)) (before ++ '\n' :: front).length
        (1 + (before ++ '\n' :: front).count '\n') rest other := by
  cases stops with
  | @strange c rest none =>
    obtain ⟨quotation, -, isError⟩ := ScanError.at_eq front c c rest
    obtain ⟨other, -, otherError⟩ := ScanError.at_eq (before ++ '\n' :: front) c c rest
    rw [List.append_assoc, List.cons_append] at otherError
    have lines : 1 + (before ++ '\n' :: front).count '\n' =
        1 + front.count '\n' + (1 + before.count '\n') := by
      rw [List.count_append, List.count_cons_self]
      omega
    refine ⟨_, ?_, .strange none⟩
    rw [isError, otherError, columnAt_newline, lines]
    exact .unexpected ..
  | @long _ lexeme count found tooMany => exact ⟨_, .tooManyDigits count, .long found tooMany⟩

end Stops

/-! ## Tokens behind others -/

/-- The number that is larger by an amount. Other values stay as they are. -/
def raised (amount : Nat) : Value → Value
  | .number n => .number (n + amount)
  | value => value

/-- The token at a place that is further down by a number of lines and further on by a number
of characters. -/
def moved (lines columns : Nat) (token : Token) : Token :=
  { token with line := raised lines token.line, column := raised columns token.column }

/-- Tokens that are placed further on are moved. -/
theorem placed_moved (lexemes : List Lexeme) (offset line lines columns : Nat) :
    placed lexemes (columns + offset) (lines + line) =
      (placed lexemes offset line).map (moved lines columns) := by
  have shifted (amount n : Nat) : Value.number ((amount + n : Nat) : Int) =
      raised amount (.number n) := by
    rw [raised, Nat.add_comm, Int.natCast_add]
  induction lexemes generalizing offset line with
  | nil =>
    rw [placed, placed, List.map_singleton, moved, endOfFile, endOfFile, shifted, shifted]
  | cons first others inductionHypothesis =>
    rw [placed, placed, Nat.add_assoc, Nat.add_assoc, inductionHypothesis]
    unfold Lexeme.consToken
    cases first.content? with
    | none => rfl
    | some content => rw [List.map_cons, moved, shifted, shifted]

/-- The tokens of lexemes stand in front of those of any others, which are placed behind all
that the first ones take. -/
theorem placed_append (lexemes : List Lexeme) (offset line : Nat) :
    ∃ tokens, ∀ others, placed (lexemes ++ others) offset line =
      tokens ++ placed others (offset + extent lexemes) (line + lineEnds lexemes) := by
  induction lexemes generalizing offset line with
  | nil => exact ⟨[], fun _ => rfl⟩
  | cons first lexemes inductionHypothesis =>
    obtain ⟨tokens, followed⟩ :=
      inductionHypothesis (offset + first.length) (line + first.lineEnds)
    have pushed (behind : List Token) : first.consToken line offset (tokens ++ behind) =
        first.consToken line offset tokens ++ behind := by
      unfold Lexeme.consToken
      cases first.content? with
      | none => rfl
      | some content => rfl
    refine ⟨first.consToken line offset tokens, ?_⟩
    intro others
    rw [List.cons_append, placed, followed, pushed, Nat.add_assoc, Nat.add_assoc, extent, lineEnds]

/-! ## Scanning two parts -/

/-- The tokens of two texts with a line end between them, from the tokens of each. -/
def joinLines (front : String) (tokens others : List Token) : List Token :=
  tokens.dropLast ++
    ⟨.newline, .text "\n", .number (1 + front.toList.count '\n' : Nat),
      .number front.toList.length⟩ ::
    others.map (moved (1 + front.toList.count '\n') (front.toList.length + 1))

variable {front back : String}

/-- The characters of two texts with a line end between them. -/
theorem toList_newline (front back : String) :
    (front ++ "\n" ++ back).toList = front.toList ++ '\n' :: back.toList := by
  simp

/-- Scanning fails exactly if it does not get past a place in the text, with the error for the
line ends and characters in front of the place. -/
theorem scan_eq_error_iff {source : String} {error : ScanError} :
    scan source = .error error ↔
      ∃ lexemes start rest, Cuts source.toList lexemes rest ∧ source.toList = start ++ rest ∧
        Stops (start ++ rest) start.length (1 + start.count '\n') rest error := by
  rw [scan, scanFrom_eq_error_iff]
  constructor
  · rintro ⟨lexemes, rest, cut, stops⟩
    obtain ⟨start, whole, length, count⟩ := cut.front
    rw [whole, Nat.zero_add, ← length, ← count] at stops
    exact ⟨lexemes, start, rest, cut, whole, stops⟩
  · rintro ⟨lexemes, start, rest, cut, whole, stops⟩
    obtain ⟨_, split, length, count⟩ := cut.front
    obtain rfl := List.append_cancel_right (whole.symm.trans split)
    rw [length, count, ← whole] at stops
    exact ⟨lexemes, rest, cut, (Nat.zero_add _).symm ▸ stops⟩

/-- An error in front of a line end is the error of the whole text. -/
theorem scan_newline_front {error : ScanError} (failed : scan front = .error error) :
    scan (front ++ "\n" ++ back) = .error error := by
  obtain ⟨lexemes, start, rest, cut, whole, stops⟩ := scan_eq_error_iff.mp failed
  rw [scan_eq_error_iff, toList_newline]
  refine ⟨lexemes, start, rest ++ '\n' :: back.toList, cut.append_newline _, ?_, ?_⟩
  · rw [whole, List.append_assoc]
  · exact stops.append_newline back.toList

/-- An error behind a line end is moved, if there is none in front of it. -/
theorem scan_newline_back {tokens : List Token} {error : ScanError}
    (scanned : scan front = .ok tokens) (failed : scan back = .error error) :
    ∃ other, error.Moved (1 + front.toList.count '\n') other ∧
      scan (front ++ "\n" ++ back) = .error other := by
  obtain ⟨lexemes, cut, rfl⟩ := scan_eq_ok_iff.mp scanned
  obtain ⟨others, start, rest, cutBack, whole, stops⟩ := scan_eq_error_iff.mp failed
  obtain ⟨other, isMoved, stopsThere⟩ := stops.moved front.toList
  have together := (cut.append_newline back.toList).trans cutBack.newline
  refine ⟨other, isMoved, ?_⟩
  rw [scan_eq_error_iff, toList_newline]
  refine ⟨_, front.toList ++ '\n' :: start, rest, together, ?_, ?_⟩
  · rw [whole, List.append_assoc, List.cons_append]
  · rw [List.append_assoc, List.cons_append]
    exact stopsThere

/-- If both parts are scanned, so is the whole, and its tokens are theirs. -/
theorem scan_newline_both {tokens others : List Token} (scanned : scan front = .ok tokens)
    (scannedBack : scan back = .ok others) :
    scan (front ++ "\n" ++ back) = .ok (joinLines front tokens others) := by
  obtain ⟨lexemes, cut, rfl⟩ := scan_eq_ok_iff.mp scanned
  obtain ⟨further, cutBack, rfl⟩ := scan_eq_ok_iff.mp scannedBack
  have together := (cut.append_newline back.toList).trans cutBack.newline
  rw [← toList_newline] at together
  rw [scan_eq_ok_iff]
  refine ⟨_, together, ?_⟩
  obtain ⟨_, whole, length, count⟩ := cut.front
  rw [List.append_nil] at whole
  subst whole
  obtain ⟨start, followed⟩ := placed_append lexemes 0 1
  rw [Nat.zero_add, ← length, ← count] at followed
  have alone := followed []
  rw [List.append_nil, placed] at alone
  rw [followed, joinLines, alone, List.dropLast_concat, ← placed_moved, placed, Nat.add_zero]
  rfl

/-- A text with a line end in it is scanned exactly if what stands in front of it and what
stands behind it are. -/
theorem scan_newline_eq_ok_iff {all : List Token} :
    scan (front ++ "\n" ++ back) = .ok all ↔
      ∃ tokens others, scan front = .ok tokens ∧ scan back = .ok others ∧
        all = joinLines front tokens others := by
  constructor
  · intro scanned
    cases outcome : scan front with
    | error error =>
      rw [scan_newline_front outcome] at scanned
      cases scanned
    | ok tokens =>
      cases outcomeBack : scan back with
      | error error =>
        obtain ⟨other, -, failed⟩ := scan_newline_back outcome outcomeBack
        rw [failed] at scanned
        cases scanned
      | ok others =>
        rw [scan_newline_both outcome outcomeBack] at scanned
        exact ⟨tokens, others, rfl, rfl, (Except.ok.inj scanned).symm⟩
  · rintro ⟨tokens, others, scanned, scannedBack, rfl⟩
    exact scan_newline_both scanned scannedBack

/-- Scanning a text with a line end in it is scanning what stands in front of it and then what
stands behind it. The first error is the error of the whole, moved if it is behind the line
end. If there is none, the tokens of the whole are those in front without the one that ends
the text, the line end, and those behind, moved.

No lexeme goes beyond a line end. Therefore the text in front is cut as it is by itself, and so is
the text behind it, which begins at another offset and on another line. There are three cases,
according to where the first error is. -/
theorem scan_lineByLine (front back : String) :
    match scan front, scan back with
    | .error error, _ => scan (front ++ "\n" ++ back) = .error error
    | .ok _, .error error => ∃ other, error.Moved (1 + front.toList.count '\n') other ∧
        scan (front ++ "\n" ++ back) = .error other
    | .ok tokens, .ok others => scan (front ++ "\n" ++ back) = .ok (tokens.dropLast ++
        ⟨.newline, .text "\n", .number (1 + front.toList.count '\n' : Nat),
          .number front.toList.length⟩ ::
        others.map (moved (1 + front.toList.count '\n') (front.toList.length + 1))) := by
  cases outcome : scan front with
  | error error => exact scan_newline_front outcome
  | ok tokens =>
    cases outcomeBack : scan back with
    | error error => exact scan_newline_back outcome outcomeBack
    | ok others => exact scan_newline_both outcome outcomeBack

end LineBasic.Token
