import LineBasic.Proofs.InputLines
import LineBasic.Proofs.LineByLine
import Mathlib.Data.List.Induction

/-!
# Where scanning fails

Scanning fails at the first place where no token begins, or at a number that has too many
digits. What stands in front of that place is scanned by itself without an error, since no
lexeme that has been cut off looks further than to see that nothing continues it. Which
characters begin no token can be said without the order in which lexemes are tried: only the
quote depends on what follows.

Lines are counted by line feeds and columns from the last of them. The line to be quoted is
looked up among the display lines, of which there are never too few, although they are broken
at other characters as well.
-/

namespace LineBasic.Token

open Text

/-! ## The text in front of a place -/

/-- What does not continue a lexeme does not do so when it is cut off. -/
theorem Lexeme.Ends.front {lexeme : Lexeme} {after more : List Char}
    (ends : lexeme.Ends (after ++ more)) : lexeme.Ends after := by
  have first {test : Char → Prop} (passes : Front test (after ++ more)) : Front test after := by
    cases after with
    | nil => simp [Front]
    | cons c after => exact passes
  have longer {word : List Char} (spelling : List Char) (begins : word <+: spelling ++ after) :
      word <+: spelling ++ (after ++ more) := by
    rw [← List.append_assoc]
    exact begins.trans (List.prefix_append _ more)
  cases lexeme with
  | blanks count => exact first ends
  | number digits => exact first ends
  | remark body => exact first ends
  | string body => exact trivial
  | fixed kind spelling =>
    intro entry member begins
    exact ends entry member (longer spelling begins)
  | identifier letter =>
    refine ⟨fun entry member begins => ?_, fun begins => ?_⟩
    · exact ends.1 entry member (longer [letter] begins)
    · exact ends.2 (longer [letter] begins)

/-- What is cut off is cut in the same way when nothing follows it. -/
theorem Cuts.alone {text rest : List Char} {lexemes : List Lexeme} (cut : Cuts text lexemes rest) :
    ∃ front, text = front ++ rest ∧ Cuts front lexemes [] := by
  induction cut with
  | done text => exact ⟨[], rfl, .done []⟩
  | lexeme found short further inductionHypothesis =>
    obtain ⟨spelling, after, rfl, spelled, ends⟩ := lexeme?_eq_some_iff.mp found
    rw [spelled.length_eq, List.drop_left] at inductionHypothesis
    obtain ⟨front, rfl, cut⟩ := inductionHypothesis
    refine ⟨spelling ++ front, (List.append_assoc ..).symm, ?_⟩
    exact (Cuts.spelled spelled ends.front short).trans cut

/-! ## Characters that begin no token -/

/-- The characters that are tokens by themselves or begin longer signs. -/
def signs : List Char := ['>', '<', '=', '+', '-', '*', '/', '(', ')', ',', ':', '\n']

/-- No token begins with the character: it is no digit, blank, letter of a variable or sign, and
if it is a quote then no other quote follows on the line. -/
def NoToken (c : Char) (behind : List Char) : Prop :=
  isDigit c = false ∧ isSpace c = false ∧ isVariable c = false ∧ c ∉ signs ∧
    (c = '"' → '"' ∉ behind.takeWhile (· != '\n'))

/-- A string is not closed exactly if no quote follows on the line. -/
theorem string?_eq_none_iff (text : List Char) :
    string? text = none ↔ '"' ∉ text.takeWhile (· != '\n') := by
  induction text with
  | nil => simp [string?]
  | cons c text inductionHypothesis =>
    by_cases isQuote : c = '"'
    · simp [string?, isQuote]
    by_cases isFeed : c = '\n'
    · simp [string?, isFeed]
    have further : string? (c :: text) = none ↔ string? text = none := by
      have inside : (c != '"' && c != '\n') = true := by simp [isQuote, isFeed]
      simp only [string?]
      rw [List.dropWhile_cons, if_pos inside]
      split <;> simp
    rw [further, inductionHypothesis]
    simp [isFeed, Ne.symm isQuote]

/-- Reserved words begin with a letter of a variable, and signs with a character of a sign. -/
theorem fixed_first : ∀ entry ∈ fixedSpellings,
    Front (fun c => isVariable c = true ∨ c ∈ signs) entry.2 := by
  have checked : (fixedSpellings.all fun entry =>
      entry.2.head?.all fun c => isVariable c || signs.contains c) = true := by decide
  intro entry member c first
  have passed := List.all_eq_true.mp checked entry member
  rw [Option.mem_def.mp first] at passed
  simpa using passed

/-- Every character of a sign is a sign by itself. -/
theorem fixed_single : ∀ c ∈ signs, ∃ entry ∈ fixedSpellings, entry.2 = [c] := by
  have checked : (signs.all fun c => fixedSpellings.any fun entry => entry.2 == [c]) = true := by
    decide
  intro c sign
  obtain ⟨entry, member, single⟩ := List.any_eq_true.mp (List.all_eq_true.mp checked c sign)
  exact ⟨entry, member, beq_iff_eq.mp single⟩

/-- There is no lexeme exactly if no token begins with the first character. -/
theorem lexeme?_eq_none_iff {c : Char} {behind : List Char} :
    lexeme? (c :: behind) = none ↔ NoToken c behind := by
  rw [lexeme?]
  by_cases digit : isDigit c = true
  · simp [NoToken, digit]
  by_cases space : isSpace c = true
  · simp [NoToken, digit, space]
  by_cases quote : c = '"'
  · subst quote
    have other : isVariable '"' = false ∧ '"' ∉ signs := by decide
    rw [if_neg digit, if_neg space, if_pos rfl, string?_eq_none_iff]
    simp [NoToken, digit, space, other]
  rw [if_neg digit, if_neg space, if_neg quote]
  cases found : fixedSpellings.find? fun entry => entry.2.isPrefixOf (c :: behind) with
  | some entry =>
    have isFront := List.find?_some found
    have begins : entry.2 <+: c :: behind := List.isPrefixOf_iff_prefix.mp isFront
    have member := List.mem_of_find?_eq_some found
    have first : entry.2.head? = some c := by
      cases spelling : entry.2 with
      | nil => exact absurd spelling (spelling_ne_nil entry member)
      | cons d rest =>
        rw [spelling, List.cons_prefix_cons] at begins
        exact congrArg some begins.1
    have known := fixed_first entry member c first
    refine iff_of_false (by simp) ?_
    rintro ⟨-, -, noLetter, noSign, -⟩
    rcases known with letter | sign
    · simp [noLetter] at letter
    · exact noSign sign
  | none =>
    have noSign : c ∉ signs := by
      intro sign
      obtain ⟨entry, member, single⟩ := fixed_single c sign
      refine find_fixed_none_iff.mp found entry member ?_
      exact single ▸ List.prefix_append [c] behind
    dsimp only
    by_cases letter : isVariable c = true
    · refine iff_of_false ?_ (by simp [NoToken, letter])
      split <;> simp
    · have noRemark : ¬ remarkWord.isPrefixOf (c :: behind) = true := by
        intro begins
        obtain ⟨rfl, -⟩ := List.cons_prefix_cons.mp (List.isPrefixOf_iff_prefix.mp begins)
        exact letter (by decide)
      rw [if_neg noRemark, if_neg letter]
      simp [NoToken, digit, space, quote, letter, noSign]

/-! ## Lines and columns -/

/-- Every text consists of lines and of a last line without its end. -/
theorem exists_lastLine (text : List Char) :
    ∃ above left, text = above ++ left ∧ Ended above ∧ '\n' ∉ left := by
  induction text using List.reverseRecOn with
  | nil => exact ⟨[], [], rfl, .inl rfl, List.not_mem_nil⟩
  | append_singleton text c inductionHypothesis =>
    by_cases isFeed : c = '\n'
    · refine ⟨text ++ [c], [], (List.append_nil _).symm, .inr ?_, List.not_mem_nil⟩
      rw [isFeed, List.getLast?_concat]
    · obtain ⟨above, left, rfl, ended, onLine⟩ := inductionHypothesis
      refine ⟨above, left ++ [c], List.append_assoc .., ended, ?_⟩
      simp [onLine, Ne.symm isFeed]

/-- Columns are counted from the last line end. -/
theorem columnAt_lastLine {above left : List Char} (ended : Ended above) (onLine : '\n' ∉ left) :
    columnAt (above ++ left) (above ++ left).length = left.length + 1 := by
  have alone : columnAt left left.length = left.length + 1 := by
    have whole : left.reverse.takeWhile (· != '\n') = left.reverse :=
      takeWhile_eq_self fun c member => by
        simp only [bne_iff_ne, ne_eq]
        rintro rfl
        exact onLine (List.mem_reverse.mp member)
    rw [columnAt, List.take_length, whole, List.length_reverse]
  rcases ended with rfl | isEnd
  · exact alone
  · obtain ⟨before, rfl⟩ := List.getLast?_eq_some_iff.mp isEnd
    rw [List.append_assoc, List.singleton_append, columnAt_newline, alone]

/-- A number with too many digits is a run of that many digits. -/
theorem excess_run {text : List Char} {lexeme : Lexeme} {count : Nat}
    (found : lexeme? text = some lexeme) (tooMany : lexeme.excess? = some count) :
    count = (text.takeWhile isDigit).length ∧ Numeral.digitLimit < count := by
  obtain ⟨spelling, rest, rfl, spelled, ends⟩ := lexeme?_eq_some_iff.mp found
  cases lexeme with
  | number digits =>
    have length := spelled.length_eq
    obtain ⟨-, run, -⟩ := spelled
    rw [Lexeme.excess?, Option.ite_none_right_eq_some] at tooMany
    obtain ⟨long, isCount⟩ := tooMany
    cases isCount
    rw [takeWhile_run run ends]
    exact ⟨length, long⟩
  | _ => cases tooMany

/-- What an error tells about the place where scanning fails, with the text in front of it and the
text that is left. -/
inductive ScanError.Tells (front rest : List Char) : ScanError → Prop where
  | unexpected {culprit : Char} {behind above left quotation : List Char}
      (isRest : rest = culprit :: behind) (noLexeme : lexeme? rest = none)
      (isFront : front = above ++ left) (ended : Ended above) (onLine : '\n' ∉ left)
      (isQuoted : (displayLines (front ++ rest))[front.count '\n']? = some quotation) :
      Tells front rest (.unexpected culprit (1 + front.count '\n') (left.length + 1) quotation)
  | tooManyDigits {count : Nat} (run : count = (rest.takeWhile isDigit).length)
      (long : Numeral.digitLimit < count) : Tells front rest (.tooManyDigits count)

/-- The error for a place tells this about it. -/
theorem Stops.tells {front rest : List Char} {error : ScanError}
    (stops : Stops (front ++ rest) front.length (1 + front.count '\n') rest error) :
    error.Tells front rest := by
  cases stops with
  | @strange culprit behind noLexeme =>
    obtain ⟨quotation, isQuoted, isError⟩ := ScanError.at_eq front culprit culprit behind
    obtain ⟨above, left, isFront, ended, onLine⟩ := exists_lastLine front
    have column : columnAt front front.length = left.length + 1 := by
      rw [isFront, columnAt_lastLine ended onLine]
    rw [isError, column]
    exact .unexpected rfl noLexeme isFront ended onLine isQuoted
  | long found tooMany =>
    obtain ⟨run, long⟩ := excess_run found tooMany
    exact .tooManyDigits run long

/-- The message names the place and the culprit, with the quotation between them. -/
theorem ScanError.message_unexpected (culprit : Char) (line column : Nat) (quotation : List Char) :
    ∃ quoting, (ScanError.unexpected culprit line column quotation).message =
      s!"\nErro léxico na linha {line}, coluna {column}:\n" ++ quoting ++
        "Caractere inesperado: " ++ String.ofList (quoted [culprit]) := by
  have regroup (place margin quoted feed spaces caret name culprit : String) :
      place ++ margin ++ quoted ++ feed ++ margin ++ spaces ++ caret ++ name ++ culprit =
        place ++ (margin ++ quoted ++ feed ++ margin ++ spaces ++ caret) ++ name ++ culprit := by
    simp only [String.append_assoc]
  -- The equations of the definition are slow to state for its long texts, so it is opened by hand.
  delta message
  exact ⟨_, regroup ..⟩

/-- Scanning fails at a place in front of which the text is scanned by itself. Either no token
begins there: the error names the character at that place, the line by one more than the line
ends in front of it, and the column counted from the last of them, and quotes a line that
exists. Or a number with too many digits stands there. There is no other error.

The text is cut as far as it goes, and the lexemes in front of the place where that stops are those
of the text in front alone. What stops it is one of two things, and tells the line, the column and
the quotation. There are never fewer display lines than line feeds, so there is a line to quote. -/
theorem scan_fails_at {source : String} {error : ScanError} :
    scan source = .error error → ∃ front rest, source.toList = front ++ rest ∧
      (∃ tokens, scan (String.ofList front) = .ok tokens) ∧
      match error with
      | .unexpected culprit line column quotation =>
        (∃ behind, rest = culprit :: behind ∧ lexeme? rest = none ∧ NoToken culprit behind) ∧
        line = 1 + front.count '\n' ∧
        (∃ above left, front = above ++ left ∧ Ended above ∧ '\n' ∉ left ∧
          column = front.length - above.length + 1) ∧
        (displayLines source.toList)[line - 1]? = some quotation ∧
        ∃ quoting, error.message = s!"\nErro léxico na linha {line}, coluna {column}:\n" ++
          quoting ++ "Caractere inesperado: " ++ String.ofList (quoted [culprit])
      | .tooManyDigits count =>
        count = (rest.takeWhile isDigit).length ∧ 4300 < count
      | .unquotable => False := by
  intro failed
  obtain ⟨lexemes, front, rest, cut, whole, stops⟩ := scan_eq_error_iff.mp failed
  have scanned : ∃ tokens, scan (String.ofList front) = .ok tokens := by
    obtain ⟨_, split, alone⟩ := cut.alone
    obtain rfl := List.append_cancel_right (whole.symm.trans split)
    refine ⟨_, scan_eq_ok_iff.mpr ⟨lexemes, ?_, rfl⟩⟩
    rwa [String.toList_ofList]
  refine ⟨front, rest, whole, scanned, ?_⟩
  cases stops.tells with
  | @unexpected culprit behind above left quotation isRest noLexeme isFront ended onLine isQuoted =>
    subst isRest
    refine ⟨⟨behind, rfl, noLexeme, lexeme?_eq_none_iff.mp noLexeme⟩, rfl, ?_, ?_,
      ScanError.message_unexpected ..⟩
    · refine ⟨above, left, isFront, ended, onLine, ?_⟩
      rw [isFront, List.length_append, Nat.add_sub_cancel_left]
    · rw [whole, Nat.add_sub_cancel_left, isQuoted]
  | tooManyDigits run long => exact ⟨run, long⟩

/-- A quote is not closed on the second line. The comment above it holds a vertical tab, which
breaks its display line, and a quote, which is not the one that is missing. -/
theorem scan_fails_at_quote :
    let source := "1 REM \x0b\"\n2 PRINT \"A"
    scan source = .error (.unexpected '"' 2 9 ['"']) ∧
      ∃ front behind, source.toList = front ++ '"' :: behind ∧
        (∃ tokens, scan (String.ofList front) = .ok tokens) ∧ front.count '\n' = 1 ∧
        '"' ∉ behind.takeWhile (· != '\n') := by
  intro source
  have failed : scan source = .error (.unexpected '"' 2 9 ['"']) := by decide +kernel
  obtain ⟨front, _, whole, scanned, ⟨behind, rfl, -, noToken⟩, line, -⟩ := scan_fails_at failed
  obtain ⟨-, -, -, -, unclosed⟩ := noToken
  exact ⟨failed, front, behind, whole, scanned, by omega, unclosed rfl⟩

end LineBasic.Token
