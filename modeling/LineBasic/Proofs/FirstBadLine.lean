import LineBasic.Proofs.LineByLine
import LineBasic.Proofs.LineKeeping
import LineBasic.Proofs.Lookahead
import LineBasic.Proofs.WellFormed

/-!
# Errors of the grammar are at the first bad line

Where tokens of a source text make no program, all lines in front of one line have been read,
and the error arises on that line. So the text up to that line is a program by itself. The
number in the message is that of the line, since tokens carry the number of line ends in front
of them and reading keeps to the line.

What follows the bad line makes no difference. Reading has looked no further than the end of
the line, and every text that agrees up to there has the same tokens up to there.
-/

namespace LineBasic

namespace Program

open Reading Grammar

/-! ## Numbered lines of tokens -/

/-- How many of the tokens end a line. -/
def newlines (tokens : List Token) : Nat :=
  tokens.countP fun token => decide (token.kind = .newline)

/-- Up to the one that ends the file, the tokens stand on the lines that the line ends in front
of them count. -/
def Counted : Nat → List Token → Prop
  | _, [] => False
  | line, token :: rest => token.line = .number line ∧
      (token.kind = .endOfFile ∨ Counted (line + newlines [token]) rest)

/-- The last of the tokens, if there are any, ends a line. -/
def Closed (tokens : List Token) : Prop :=
  tokens = [] ∨ ∃ front last, tokens = front ++ [last] ∧ last.kind = .newline

/-- Line ends add up. -/
theorem newlines_append (first second : List Token) :
    newlines (first ++ second) = newlines first + newlines second :=
  List.countP_append

/-- The line ends are that of the first token, if it is one, and those of the others. -/
theorem newlines_cons (token : Token) (tokens : List Token) :
    newlines (token :: tokens) = newlines [token] + newlines tokens :=
  newlines_append [token] tokens

/-- A line end counts as one. -/
theorem newlines_lineEnd {token : Token} (isLineEnd : token.kind = .newline) :
    newlines [token] = 1 := by
  simp [newlines, isLineEnd]

/-- Tokens of one line end none. -/
theorem OneLine.newlines_eq {tokens : List Token} (oneLine : OneLine tokens) :
    newlines tokens = 0 := by
  apply List.countP_eq_zero.mpr
  intro token member
  simp [(oneLine token member).1]

/-- Past tokens that do not end the file, the lines are counted on. -/
theorem Counted.passes {line : Nat} {before after : Cursor} {tokens : List Token}
    (counted : Counted line before.rest) (passes : before.Passes tokens after)
    (endless : Endless tokens) : Counted (line + newlines tokens) after.rest := by
  rw [passes.rest] at counted
  clear passes
  induction tokens generalizing line with
  | nil => exact counted
  | cons token tokens inductionHypothesis =>
    have inside := endless token List.mem_cons_self
    have further := counted.2.resolve_left inside
    rw [newlines_cons, ← Nat.add_assoc]
    exact inductionHypothesis further fun other member => endless other (.tail _ member)

/-- Counted tokens are on a line up to its end. -/
theorem Counted.onLine {line : Nat} {cursor : Cursor} (counted : Counted line cursor.rest) :
    OnLine (.number line) cursor := by
  intro tokens after passes oneLine
  have further := counted.passes passes fun token member => (oneLine token member).2
  rw [oneLine.newlines_eq, Nat.add_zero] at further
  obtain ⟨rest, position⟩ := after
  cases rest with
  | nil => exact further.elim
  | cons token rest => exact further.1

/-- Closed tokens behind the end of a line are closed. -/
theorem Closed.behind {token : Token} {tokens : List Token} (closed : Closed tokens)
    (isLineEnd : token.kind = .newline) (front : List Token) :
    Closed (front ++ token :: tokens) := by
  rcases closed with rfl | ⟨others, last, rfl, isLast⟩
  · exact .inr ⟨front, token, rfl, isLineEnd⟩
  · exact .inr ⟨front ++ token :: others, last, by simp, isLast⟩

/-- Comments stand on one line. -/
theorem Grammar.Remarks.oneLine {comments : List Token} (remarks : Remarks comments) :
    OneLine comments := by
  intro comment member
  rcases remarks comment member with isRemark | isText
  · simp [isRemark, Inner]
  · simp [isText, Inner]

/-- Lines that cannot be read have a first one, behind comments, that cannot be read, or one that
can and behind its end lines that cannot. -/
theorem linesFrom_eq_error {token : Token} {bound : List Token} {before after : Cursor}
    {error : GrammarError} (failed : linesFrom (token :: bound) before = (.error error, after)) :
    ∃ comments between, before.Passes comments between ∧ Remarks comments ∧
      (Reading.line between = (.error error, after) ∨
        ∃ tokens first atLineEnd, between.Passes tokens atLineEnd ∧ NumberedLine tokens first ∧
          atLineEnd.current.kind = .newline ∧
          linesFrom bound atLineEnd.advance = (.error error, after)) := by
  by_cases inside : before.current.kind = .endOfFile
  · rw [linesFrom_end _ inside] at failed
    cases failed
  obtain ⟨comments, between, skipped, passed, remarks, -⟩ :=
    skipRemarks_exact before.rest before (Nat.le_refl _)
  refine ⟨comments, between, passed, remarks, ?_⟩
  rw [linesFrom_cons token bound inside skipped] at failed
  split at failed
  · cases failed
  rcases bind_eq_error_iff.mp failed with lineFailed | ⟨first, atRest, lineRead, behindFailed⟩
  · exact .inl lineFailed
  right
  obtain restFailed | ⟨_, _, _, impossible⟩ := bind_eq_error_iff.mp behindFailed
  · obtain ⟨tokens, atLineEnd, passedLine, written, ended⟩ := line_sound lineRead
    rcases ended with ⟨isLineEnd, rfl⟩ | ⟨isFileEnd, rfl⟩
    · exact ⟨tokens, first, atLineEnd, passedLine, written, isLineEnd, restFailed⟩
    · rw [linesFrom_end _ isFileEnd] at restFailed
      cases restFailed
  · cases impossible

/-- Lines that cannot be read up to the end of the file have been read up to the bad one, and
the error is on that line. The induction is on the bound of the loop. -/
theorem linesFrom_fails {bound : List Token} {before after : Cursor} {error : GrammarError}
    {line : Nat} (counted : Counted line before.rest)
    (failed : linesFrom bound before = (.error error, after)) :
    ∃ done begun program, before.Passes (done ++ begun) after ∧ Lines done program ∧
      Closed done ∧ OneLine begun ∧ error.line = .number (line + newlines done : Nat) := by
  induction bound generalizing before line with
  | nil => cases failed
  | cons token bound inductionHypothesis =>
    obtain ⟨comments, between, passed, remarks, lineFailed |
      ⟨tokens, first, atLineEnd, passedLine, written, isLineEnd, restFailed⟩⟩ :=
      linesFrom_eq_error failed
    · have countedOn := counted.passes passed remarks.endless
      rw [remarks.oneLine.newlines_eq, Nat.add_zero] at countedOn
      obtain ⟨tokens, passedOn, onLine, named⟩ := line_failsOn countedOn.onLine lineFailed
      exact ⟨[], comments ++ tokens, [], passed.trans passedOn, .none (by simp [Remarks]),
        .inl rfl, remarks.oneLine.append onLine, named⟩
    · have inner : atLineEnd.current.kind ≠ .endOfFile := by simp [isLineEnd]
      have passedAll := passed.trans (passedLine.trans (.one inner))
      have countedBehind := counted.passes passedAll
        (remarks.endless.append (written.endless.append (Endless.nil.cons rfl inner)))
      obtain ⟨done, begun, program, passes, doneWritten, closed, oneLine, named⟩ :=
        inductionHypothesis countedBehind restFailed
      have whole : comments ++ (tokens ++ atLineEnd.current :: done) =
          comments ++ (tokens ++ [atLineEnd.current]) ++ done := by simp
      refine ⟨comments ++ (tokens ++ atLineEnd.current :: done), begun, first :: program, ?_,
        .more remarks written isLineEnd doneWritten, ?_, oneLine, ?_⟩
      · rw [whole, List.append_assoc]
        exact passedAll.trans passes
      · rw [← List.append_assoc]
        exact closed.behind isLineEnd _
      · rw [named, whole, newlines_append _ done, Nat.add_assoc]

/-- Tokens with no more line ends than there are in front of a line end do not reach past
it. -/
theorem length_le_of_newlines {first second rest further : List Token} {token : Token}
    (whole : first ++ rest = second ++ token :: further) (isLineEnd : token.kind = .newline)
    (fewer : newlines first ≤ newlines second) : first.length ≤ second.length := by
  by_contra longer
  have begins : second ++ [token] <+: first ++ rest :=
    ⟨further, by rw [whole, List.append_assoc, List.singleton_append]⟩
  have inside : second ++ [token] <+: first := by
    apply List.prefix_of_prefix_length_le begins (List.prefix_append first rest)
    rw [List.length_append, List.length_singleton]
    omega
  obtain ⟨others, rfl⟩ := inside
  rw [newlines_append, newlines_append, newlines_lineEnd isLineEnd] at fewer
  omega

/-- The tokens in front of a line end are those in front of another if as many lines end
there. -/
theorem split_unique {first second rest further : List Token} {token other : Token}
    (whole : first ++ token :: rest = second ++ other :: further)
    (isLineEnd : token.kind = .newline) (alsoLineEnd : other.kind = .newline)
    (same : newlines first = newlines second) : first = second ∧ token = other := by
  have noLonger := length_le_of_newlines whole alsoLineEnd (Nat.le_of_eq same)
  have noShorter := length_le_of_newlines whole.symm isLineEnd (Nat.le_of_eq same.symm)
  obtain ⟨sameFront, behind⟩ := List.append_inj whole (Nat.le_antisymm noLonger noShorter)
  exact ⟨sameFront, (List.cons.inj behind).1⟩

end Program

namespace Token

open Program

/-! ## Lines of a source text -/

/-- A lexeme ends a line exactly if its token does. -/
theorem Lexeme.lineEnds_content {lexeme : Lexeme} {kind : Kind} {value line column : Value}
    (holds : lexeme.content? = some (kind, value)) :
    lexeme.lineEnds = newlines [⟨kind, value, line, column⟩] := by
  cases lexeme with
  | blanks count => cases holds
  | fixed kind spelling =>
    cases holds
    cases kind <;> rfl
  | _ =>
    cases holds
    rfl

/-- A lexeme without a token ends no line. -/
theorem Lexeme.lineEnds_blanks {lexeme : Lexeme} (blank : lexeme.content? = none) :
    lexeme.lineEnds = 0 := by
  cases lexeme with
  | blanks count => rfl
  | _ => cases blank

/-- Placed tokens stand on the lines that the line ends in front of them count, and end as many
lines as their lexemes. -/
theorem placed_counted (lexemes : List Lexeme) (offset line : Nat) :
    Counted line (placed lexemes offset line) ∧
      newlines (placed lexemes offset line) = lineEnds lexemes := by
  induction lexemes generalizing offset line with
  | nil => exact ⟨⟨rfl, .inl rfl⟩, rfl⟩
  | cons first others inductionHypothesis =>
    obtain ⟨counted, same⟩ := inductionHypothesis (offset + first.length) (line + first.lineEnds)
    rw [placed, Lexeme.consToken, lineEnds]
    cases holds : first.content? with
    | none =>
      rw [Lexeme.lineEnds_blanks holds, Nat.add_zero] at counted same ⊢
      exact ⟨counted, by rw [same, Nat.zero_add]⟩
    | some content =>
      obtain ⟨kind, value⟩ := content
      rw [newlines_cons, same, ← Lexeme.lineEnds_content holds]
      refine ⟨⟨rfl, .inr ?_⟩, rfl⟩
      rwa [← Lexeme.lineEnds_content holds]

/-- The tokens of a source text stand on the lines that are counted from one, and as many of
them end a line as there are line ends in the text. -/
theorem scan_counted {source : String} {tokens : List Token} (scanned : scan source = .ok tokens) :
    Counted 1 tokens ∧ newlines tokens = source.toList.count '\n' := by
  obtain ⟨lexemes, cut, rfl⟩ := scan_eq_ok_iff.mp scanned
  obtain ⟨_, whole, -, count⟩ := cut.front
  rw [List.append_nil] at whole
  rw [whole, count]
  exact placed_counted lexemes 0 1

/-- A source text is cut in two at a line end. -/
theorem eq_newline {source : String} {front back : List Char}
    (whole : source.toList = front ++ '\n' :: back) :
    source = String.ofList front ++ "\n" ++ String.ofList back := by
  apply String.toList_inj.mp
  rw [toList_newline, String.toList_ofList, String.toList_ofList, whole]

/-- Up to a line end the tokens of a source text are those of every text that agrees with it up
to there, and of the text that ends there. -/
theorem scan_upTo_newline {source : String} {tokens : List Token}
    (scanned : scan source = .ok tokens) {front back : List Char}
    (whole : source.toList = front ++ '\n' :: back) :
    ∃ start lineEnd rest, tokens = start ++ lineEnd :: rest ∧ lineEnd.kind = .newline ∧
      newlines start = front.count '\n' ∧
      (∃ last, scan (String.ofList (front ++ ['\n'])) = .ok (start ++ [lineEnd, last]) ∧
        last.kind = .endOfFile) ∧
      ∀ other others, scan other = .ok others → front ++ ['\n'] <+: other.toList →
        ∃ further, others = start ++ lineEnd :: further := by
  rw [eq_newline whole] at scanned
  obtain ⟨_, others, scannedFront, -, rfl⟩ := scan_newline_eq_ok_iff.mp scanned
  obtain ⟨start, line, column, rfl, -⟩ := makes_of_scan scannedFront
  refine ⟨start, _, _, by rw [joinLines, List.dropLast_concat], rfl, ?_, ?_, ?_⟩
  · have same := (scan_counted scannedFront).2
    rwa [newlines_append, String.toList_ofList] at same
  · have scannedEnd : scan (String.ofList []) = .ok [endOfFile 1 0] := rfl
    have alone := scan_newline_both scannedFront scannedEnd
    rw [joinLines, List.dropLast_concat] at alone
    rw [eq_newline String.toList_ofList, alone]
    exact ⟨_, rfl, rfl⟩
  · rintro other others scannedOther ⟨rest, agrees⟩
    rw [List.append_assoc] at agrees
    rw [eq_newline agrees.symm] at scannedOther
    obtain ⟨_, behind, scannedAgain, -, rfl⟩ := scan_newline_eq_ok_iff.mp scannedOther
    rw [scannedFront] at scannedAgain
    cases scannedAgain
    rw [joinLines, List.dropLast_concat]
    exact ⟨_, rfl⟩

/-- The first lines of a text, each with its line end. -/
def firstLines : Nat → List Char → List Char
  | 0, _ => []
  | _ + 1, [] => []
  | count + 1, c :: rest => c :: firstLines (if c = '\n' then count else count + 1) rest

/-- Without any line there is no text. -/
theorem firstLines_zero (text : List Char) : firstLines 0 text = [] := by
  cases text <;> rfl

/-- The first lines reach up to the line end behind which there are as many as are wanted. -/
theorem firstLines_append (front back : List Char) :
    firstLines (front.count '\n' + 1) (front ++ '\n' :: back) = front ++ ['\n'] := by
  induction front with
  | nil => rw [List.count_nil, List.nil_append, firstLines, if_pos rfl, firstLines_zero]; rfl
  | cons c front inductionHypothesis =>
    rw [List.cons_append, firstLines]
    by_cases isLineEnd : c = '\n'
    · subst isLineEnd
      rw [if_pos rfl, List.count_cons_self, inductionHypothesis, List.cons_append]
    · rw [if_neg isLineEnd, List.count_cons_of_ne isLineEnd, inductionHypothesis, List.cons_append]

/-- A text with enough line ends is cut at the one in front of which there are as many as are
wanted. -/
theorem exists_newline {count : Nat} {text : List Char} (enough : count < text.count '\n') :
    ∃ front back, text = front ++ '\n' :: back ∧ front.count '\n' = count := by
  induction text generalizing count with
  | nil => exact absurd enough (Nat.not_lt_zero _)
  | cons c text inductionHypothesis =>
    by_cases isLineEnd : c = '\n'
    · subst isLineEnd
      rw [List.count_cons_self] at enough
      cases count with
      | zero => exact ⟨[], text, rfl, rfl⟩
      | succ count =>
        obtain ⟨front, back, rfl, same⟩ := inductionHypothesis (Nat.lt_of_succ_lt_succ enough)
        exact ⟨'\n' :: front, back, rfl, by rw [List.count_cons_self, same]⟩
    · rw [List.count_cons_of_ne isLineEnd] at enough
      obtain ⟨front, back, rfl, same⟩ := inductionHypothesis enough
      exact ⟨c :: front, back, rfl, by rw [List.count_cons_of_ne isLineEnd, same]⟩

end Token

namespace Source

open Program Grammar Token

/-- The grammar rejects a source text exactly if it rejects the tokens of the text. -/
theorem program_eq_grammar_iff {source : String} {error : GrammarError} :
    Source.program source = .error (.grammar error) ↔
      ∃ tokens, scan source = .ok tokens ∧ Program.ofTokens tokens = .error error := by
  rw [Source.program]
  cases scan source with
  | error other => simp
  | ok tokens =>
    cases read : Program.ofTokens tokens with
    | error other => simp [read]
    | ok program => simp [read]

/-- Tokens that the grammar rejects have been read up to a bad line, and the error names it. -/
theorem ofTokens_fails {tokens : List Token} {error : GrammarError} (counted : Counted 1 tokens)
    (rejected : Program.ofTokens tokens = .error error) :
    ∃ done begun program after, (Cursor.start tokens).Passes (done ++ begun) after ∧
      Reading.program (.start tokens) = (.error error, after) ∧ Lines done program ∧
      Closed done ∧ OneLine begun ∧ error.line = .number (1 + newlines done : Nat) := by
  cases outcome : Reading.program (.start tokens) with
  | mk found after =>
    rw [Program.ofTokens, outcome] at rejected
    obtain rfl : found = .error error := rejected
    obtain ⟨done, begun, program, passes, others⟩ := linesFrom_fails counted outcome
    exact ⟨done, begun, program, after, passes, rfl, others⟩

/-- Lines that have been read in front of a bad one are a program by themselves. -/
theorem program_done {source : String} {tokens done rest : List Token} {program : Program}
    (scanned : scan source = .ok tokens) (whole : tokens = done ++ rest)
    (written : Lines done program) (closed : Closed done) :
    Source.program (String.ofList (firstLines (newlines done) source.toList)) = .ok program := by
  have lines := (scan_counted scanned).2
  rw [program_eq_ok]
  rcases closed with rfl | ⟨front, last, rfl, isLast⟩
  · rw [newlines, List.countP_nil, firstLines_zero]
    exact ⟨[endOfFile 1 0], rfl, (ofTokens_eq_ok_iff _ _).mpr written⟩
  · rw [whole, newlines_append, newlines_append, newlines_lineEnd isLast] at lines
    obtain ⟨text, back, split, count⟩ :=
      exists_newline (lines ▸ Nat.lt_of_lt_of_le (Nat.lt_succ_self _) (Nat.le_add_right _ _))
    obtain ⟨start, lineEnd, others, shape, isLineEnd, same, ⟨final, alone, isEnd⟩, -⟩ :=
      scan_upTo_newline scanned split
    rw [whole, List.append_assoc] at shape
    obtain ⟨rfl, rfl⟩ := split_unique shape isLast isLineEnd (count.symm.trans same.symm)
    have first : firstLines (newlines (front ++ [last])) source.toList = text ++ ['\n'] := by
      rw [newlines_append, newlines_lineEnd isLast, ← count, split, firstLines_append]
    have read : input (front ++ [last, final]) = front ++ [last] :=
      input_eq (List.append_assoc front [last] [final]).symm written.endless isEnd
    refine ⟨front ++ [last, final], first ▸ alone, (ofTokens_eq_ok_iff _ _).mpr ?_⟩
    rwa [read]

/-- A text that agrees with a rejected one up to the end of the bad line is rejected with the
same error, if it has tokens. -/
theorem program_agreeing {source other : String} {tokens others done begun : List Token}
    {after : Cursor} {error : GrammarError} (scanned : scan source = .ok tokens)
    (passes : (Cursor.start tokens).Passes (done ++ begun) after)
    (failed : Reading.program (.start tokens) = (.error error, after)) (oneLine : OneLine begun)
    (ended : newlines done < source.toList.count '\n') (scannedOther : scan other = .ok others)
    (agrees : firstLines (newlines done + 1) source.toList <+: other.toList) :
    Source.program other = .error (.grammar error) := by
  obtain ⟨text, back, split, count⟩ := exists_newline ended
  obtain ⟨start, lineEnd, rest, rfl, isLineEnd, same, -, shared⟩ := scan_upTo_newline scanned split
  rw [← count, split, firstLines_append] at agrees
  obtain ⟨further, rfl⟩ := shared other others scannedOther agrees
  rw [program_eq_grammar_iff]
  refine ⟨_, scannedOther, ?_⟩
  -- Reading has passed no more than the tokens in front of the line end.
  have within : (done ++ begun).length ≤ start.length := by
    apply length_le_of_newlines passes.rest.symm isLineEnd
    rw [newlines_append, oneLine.newlines_eq, same, count, Nat.add_zero]
  obtain ⟨passed, place, alike⟩ :=
    Reading.program_local (.start (start ++ lineEnd :: rest)) (Nat.le_refl _)
  rw [failed] at place alike
  have position : passed = (done ++ begun).length := by
    have here : after.position = 0 + passed := congrArg Cursor.position place
    have there : after.position = 0 + (done ++ begun).length := passes.position
    omega
  rw [Program.ofTokens, alike _ (.start start lineEnd rest further (position ▸ within))]

/-- A source text that has tokens but no program is rejected at its first bad line. The message
names a line of the text, the lines in front of it are a program, and every text that agrees up
to the end of the line and has tokens is rejected with the same error.

Reading fails after whole lines that make a program, within one line more, and each of its steps on
that line keeps the line that an error names. Nor does it look further than the token where it
stops. So a text that has the same tokens up to the end of that line fails in the same way; and the
tokens of the first lines of a text are the first tokens of the text. -/
theorem program_firstBadLine {source : String} {error : GrammarError}
    (rejected : Source.program source = .error (.grammar error)) :
    ∃ line, 1 ≤ line ∧ line ≤ 1 + source.toList.count '\n' ∧
      (error.line = .number line ∧
        error.message = error.complaint ++ " na linha " ++ line.repr) ∧
      (∃ program,
        Source.program (String.ofList (firstLines (line - 1) source.toList)) = .ok program) ∧
      (line ≤ source.toList.count '\n' → ∀ other tokens, scan other = .ok tokens →
        firstLines line source.toList <+: other.toList →
        Source.program other = .error (.grammar error)) := by
  obtain ⟨tokens, scanned, failed⟩ := program_eq_grammar_iff.mp rejected
  obtain ⟨counted, lines⟩ := scan_counted scanned
  obtain ⟨done, begun, program, after, passes, stopped, written, closed, oneLine, named⟩ :=
    ofTokens_fails counted failed
  have whole : tokens = done ++ (begun ++ after.rest) :=
    passes.rest.trans (List.append_assoc ..)
  refine ⟨1 + newlines done, Nat.le_add_right _ _, ?_, ?_, ⟨program, ?_⟩, ?_⟩
  · rw [← lines, whole, newlines_append done]
    omega
  · refine ⟨named, ?_⟩
    have wording : error.message = error.complaint ++ " na linha " ++ error.line.shown := rfl
    rw [wording, named, Value.shown_number]
  · rw [Nat.add_sub_cancel_left]
    exact program_done scanned whole written closed
  · intro ended other others scannedOther agrees
    rw [Nat.add_comm] at ended agrees
    exact program_agreeing scanned passes stopped oneLine ended scannedOther agrees

/-- The line end itself may be what does not fit. What stands behind it does not matter. -/
theorem program_firstBadLine_goto :
    let source := "1 END\n2 GOTO\n3 END"
    let error : GrammarError :=
      ⟨.gotoTarget, ⟨.newline, .text "\n", .number 2, .number 12⟩⟩
    Source.program source = .error (.grammar error) ∧
      (∃ program, Source.program "1 END\n" = .ok program) ∧
      Source.program "1 END\n2 GOTO\n)" = .error (.grammar error) := by
  intro source error
  have rejected : Source.program source = .error (.grammar error) := by decide +kernel
  let tokens : List Token := [⟨.number, .number 1, .number 1, .number 0⟩,
    ⟨.keyword .endWord, .text "END", .number 1, .number 2⟩,
    ⟨.newline, .text "\n", .number 1, .number 5⟩, ⟨.number, .number 2, .number 2, .number 6⟩,
    ⟨.keyword .gotoWord, .text "GOTO", .number 2, .number 8⟩,
    ⟨.newline, .text "\n", .number 2, .number 12⟩,
    ⟨.rightParen, .text ")", .number 3, .number 13⟩, endOfFile 3 14]
  have scanned : scan "1 END\n2 GOTO\n)" = .ok tokens := by decide +kernel
  obtain ⟨line, -, -, ⟨named, -⟩, accepted, agreeing⟩ := program_firstBadLine rejected
  obtain rfl : 2 = line := Int.ofNat.inj (Value.number.inj named)
  have front : String.ofList (firstLines (2 - 1) source.toList) = "1 END\n" := by decide +kernel
  have agrees : firstLines 2 source.toList <+: "1 END\n2 GOTO\n)".toList := by decide +kernel
  rw [front] at accepted
  exact ⟨rejected, accepted, agreeing (by decide +kernel) _ tokens scanned agrees⟩

end Source

end LineBasic
