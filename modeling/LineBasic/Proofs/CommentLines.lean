import LineBasic.Proofs.FirstBadLine
import LineBasic.Proofs.GrammarPlaces
import LineBasic.Proofs.Spacing

/-!
# Comments on lines of their own

A comment in front of a line number is passed, but the end of its line is not. A comment that
has a line to itself is therefore no part of any program: reading passes the comment and finds
the line end where a line number should stand. So a program with such a line in it, wherever it
is put, is rejected at that line. Only behind the last line end of a text, where the end of the
file follows the comment, does it make no difference.

Lines can be taken apart at every line end: tokens that end a line, and tokens behind them,
together write a program exactly if both write one, and it is one program behind the other.
-/

namespace LineBasic

namespace Program

open Reading Grammar

/-! ## Lines behind lines -/

/-- No line of the grammar holds the end of a line. Reading keeps to a line of tokens whatever
their places are; so they can all be put on the line that is reported past the last token. -/
theorem Grammar.NumberedLine.oneLine {tokens : List Token} {line : Line}
    (written : NumberedLine tokens line) : OneLine tokens := by
  cases written with
  | @intro number tokens statements isNumber body =>
    refine OneLine.cons (by simp [isNumber, Inner]) ?_
    let level (token : Token) : Token := { token with line := Token.pastEnd.line }
    let before : Cursor := ⟨tokens.map level, 0⟩
    let after : Cursor := ⟨[], 0 + (tokens.map level).length⟩
    have passes : before.Passes (tokens.map level) after := ⟨(List.append_nil _).symm, rfl⟩
    have akin : Akin (tokens.map level) tokens := by
      rw [Akin, List.map_map]
      rfl
    have finished : after.current.kind = .endOfFile := rfl
    have read : items .colon statement before = (.ok statements, after) :=
      items_complete statement_complete (by simp [EndsStatement, EndsExpression]) (by decide)
        (body.congr akin Statement.congr) passes
        (by simp [EndsStatement, EndsExpression, finished])
    have onLine : OnLine Token.pastEnd.line before := by
      intro passed between passesOn _
      have among : ∀ token ∈ between.rest, token.line = Token.pastEnd.line := by
        intro token member
        have ofAll : token ∈ before.rest := by
          rw [passesOn.rest]
          exact List.mem_append_right passed member
        obtain ⟨original, -, rfl⟩ := List.mem_map.mp ofAll
        rfl
      rw [Cursor.current]
      cases rest : between.rest with
      | nil => rfl
      | cons token others => exact among token (rest ▸ List.mem_cons_self)
    have keeps : Keeps Token.pastEnd.line (items .colon statement) :=
      items_keeps (by simp [Inner]) statement_keeps
    obtain ⟨passed, passesToo, oneLine, -⟩ := keeps before onLine
    rw [read] at passesToo
    have same : tokens.map level = passed := passesToo.rest.trans (List.append_nil passed)
    intro token member
    exact oneLine (level token) (same ▸ List.mem_map_of_mem member)

/-- Closed tokens without the end of a line are none. -/
theorem Closed.eq_nil {tokens : List Token} (closed : Closed tokens) (oneLine : OneLine tokens) :
    tokens = [] := by
  rcases closed with none | ⟨front, last, rfl, isLineEnd⟩
  · exact none
  · exact absurd isLineEnd (oneLine last (List.mem_append_right front List.mem_cons_self)).1

/-- Without its line end a line is not closed. -/
theorem Grammar.NumberedLine.not_closed {comments tokens : List Token} {line : Line}
    (written : NumberedLine tokens line) (remarks : Remarks comments) :
    ¬ Closed (comments ++ tokens) := by
  intro closed
  have nothing := closed.eq_nil (remarks.oneLine.append written.oneLine)
  cases written
  simp at nothing

/-- What stands behind any one of closed tokens is closed. -/
theorem Closed.of_behind {front tokens : List Token} {token : Token}
    (closed : Closed (front ++ token :: tokens)) : Closed tokens := by
  rcases List.eq_nil_or_concat tokens with rfl | ⟨others, last, rfl⟩
  · exact .inl rfl
  · rcases closed with none | ⟨before, found, same, isLineEnd⟩
    · simp at none
    · rw [List.concat_eq_append, ← List.cons_append, ← List.append_assoc] at same
      obtain ⟨-, sameLast⟩ := List.append_inj' same rfl
      cases sameLast
      exact .inr ⟨others, last, List.concat_eq_append, isLineEnd⟩

/-- Lines behind closed lines are further lines of the program. -/
theorem Grammar.Lines.append {tokens others : List Token} {first second : Program}
    (written : Lines tokens first) (closed : Closed tokens) (further : Lines others second) :
    Lines (tokens ++ others) (first ++ second) := by
  induction written with
  | none remarks =>
    rw [closed.eq_nil remarks.oneLine]
    exact further
  | last remarks written => exact absurd closed (written.not_closed remarks)
  | more remarks written ends _ inductionHypothesis =>
    rw [← List.append_assoc] at closed
    rw [List.append_assoc, List.append_assoc, List.cons_append]
    exact .more remarks written ends (inductionHypothesis closed.of_behind)

/-- Lines are taken apart behind closed tokens. The induction takes off one line after the
other; the closed tokens reach over the first line end unless there are none of them. -/
theorem Grammar.Lines.split {tokens others : List Token} {program : Program}
    (written : Lines (tokens ++ others) program) (closed : Closed tokens) :
    ∃ first second, Lines tokens first ∧ Lines others second ∧ program = first ++ second := by
  generalize whole : tokens ++ others = all at written
  induction written generalizing tokens with
  | none remarks =>
    subst whole
    obtain rfl := closed.eq_nil fun token member =>
      remarks.oneLine token (List.mem_append_left others member)
    exact ⟨[], [], .none (by simp [Remarks]), .none remarks, rfl⟩
  | last remarks written =>
    obtain rfl := closed.eq_nil fun token member =>
      (remarks.oneLine.append written.oneLine) token (whole ▸ List.mem_append_left others member)
    rw [List.nil_append] at whole
    exact ⟨[], _, .none (by simp [Remarks]), whole ▸ .last remarks written, rfl⟩
  | @more comments line rest lineEnd first lines remarks written ends behind
      inductionHypothesis =>
    have oneLine := remarks.oneLine.append written.oneLine
    by_cases filled : tokens = []
    · subst filled
      rw [List.nil_append] at whole
      exact ⟨[], _, .none (by simp [Remarks]), whole ▸ .more remarks written ends behind, rfl⟩
    rw [← List.append_assoc] at whole
    rcases List.append_eq_append_iff.mp whole with ⟨more, short, -⟩ | ⟨more, long, shared⟩
    · refine absurd (closed.eq_nil fun token member => ?_) filled
      exact oneLine token (short ▸ List.mem_append_left more member)
    · cases more with
      | nil =>
        rw [List.append_nil] at long
        exact absurd (closed.eq_nil (long ▸ oneLine)) filled
      | cons token more =>
        obtain ⟨rfl, rfl⟩ := List.cons.inj shared
        rw [long] at closed ⊢
        obtain ⟨before, after, writtenBefore, writtenAfter, rfl⟩ :=
          inductionHypothesis closed.of_behind rfl
        rw [List.append_assoc]
        exact ⟨first :: before, after, .more remarks written ends writtenBefore, writtenAfter, rfl⟩

/-! ## Comments in front of a line end -/

/-- An error behind closed lines is an error of all the lines. -/
theorem linesFrom_behind {done : List Token} {lines : Program} (written : Lines done lines)
    (closed : Closed done) {bound : List Token} {before after last : Cursor} {error : GrammarError}
    (passed : before.Passes done after) (enough : before.rest.length ≤ bound.length)
    (failed : ∀ further : List Token, after.rest.length ≤ further.length →
      linesFrom further after = (.error error, last)) :
    linesFrom bound before = (.error error, last) := by
  induction written generalizing bound before with
  | none remarks =>
    obtain rfl := closed.eq_nil remarks.oneLine
    obtain rfl := passed.eq_of_nil
    exact failed bound enough
  | last remarks written => exact absurd closed (written.not_closed remarks)
  | @more comments tokens rest lineEnd first lines remarks written ends others
      inductionHypothesis =>
    obtain ⟨token, bound, rfl⟩ := bound_of_passes (by cases written; simp) passed enough
    rw [← List.append_assoc] at passed closed
    obtain ⟨atLineEnd, passedLine, atEnd⟩ := passed.split
    obtain ⟨rfl, passedRest⟩ := atEnd.uncons
    have shorter : atLineEnd.advance.rest.length ≤ bound.length := by
      rw [passed.rest] at enough
      simp only [List.length_append, List.length_cons, passedRest.rest] at enough ⊢
      omega
    rw [linesFrom_line remarks written passedLine (.inl ends), if_pos ends]
    exact bind_eq_error_iff.mpr (.inl (inductionHypothesis closed.of_behind passedRest shorter))

/-- A line end with nothing but comments in front of it stands where a line number should. -/
theorem linesFrom_lineEnd {comments bound : List Token} {before after : Cursor}
    (remarks : Remarks comments) (passed : before.Passes comments after)
    (isLineEnd : after.current.kind = .newline) (enough : before.rest.length ≤ bound.length) :
    linesFrom bound before = (.error ⟨.lineNumber, after.current⟩, after) := by
  have inner : after.current.kind ≠ .endOfFile := by simp [isLineEnd]
  have passedBoth := passed.trans (.one inner)
  obtain ⟨token, bound, rfl⟩ := bound_of_passes (by simp) passedBoth enough
  have inside := (remarks.endless.append (Endless.nil.cons rfl inner)).inside (by simp) passedBoth
  have skipped := skipRemarks_complete remarks passed (by simp [IsRemark, isLineEnd])
    (Nat.le_refl _)
  have missing : Reading.line after = (.error ⟨.lineNumber, after.current⟩, after) := by
    rw [Reading.line, current_bind]
    refine bind_eq_error_iff.mpr (.inl ?_)
    rw [required, kind_bind, if_neg (by simp [isLineEnd]), expected_apply]
  rw [linesFrom_cons token bound inside skipped, if_neg inner]
  exact bind_eq_error_iff.mpr (.inl missing)

/-- Behind closed lines, tokens are rejected at a line end with nothing but comments in front of
it. -/
theorem ofTokens_lineEnd {start comments rest : List Token} {lineEnd : Token} {lines : Program}
    (written : Lines start lines) (closed : Closed start) (remarks : Remarks comments)
    (isLineEnd : lineEnd.kind = .newline) :
    ofTokens (start ++ (comments ++ lineEnd :: rest)) = .error ⟨.lineNumber, lineEnd⟩ := by
  let behind : Cursor := ⟨comments ++ lineEnd :: rest, 0 + start.length⟩
  let after : Cursor := ⟨lineEnd :: rest, behind.position + comments.length⟩
  have passed : (Cursor.start (start ++ (comments ++ lineEnd :: rest))).Passes start behind :=
    ⟨rfl, rfl⟩
  have passedComments : behind.Passes comments after := ⟨rfl, rfl⟩
  rw [ofTokens, Reading.program, remaining_bind, linesFrom_behind written closed passed
    (Nat.le_refl _) fun further => linesFrom_lineEnd remarks passedComments isLineEnd]
  rfl

end Program

namespace Token

open Program Grammar

/-! ## Texts behind a line end -/

/-- Tokens that are moved nowhere stay as they are. -/
theorem moved_zero (token : Token) : moved 0 0 token = token := by
  have same (value : Value) : raised 0 value = value := by
    cases value with
    | number n => rw [raised, Int.natCast_zero, Int.add_zero]
    | _ => rfl
  rw [moved, same, same]

/-- A text that is empty or ends in a line end has the same tokens in front of every text, whose
tokens are moved behind them. -/
theorem scan_closed {front back : String} {all : List Token}
    (closed : front = "" ∨ ∃ lines, front = lines ++ "\n")
    (scanned : scan (front ++ back) = .ok all) :
    ∃ start, Closed start ∧ Endless start ∧ (∃ others, scan back = .ok others) ∧
      ∀ other others, scan other = .ok others → scan (front ++ other) =
        .ok (start ++ others.map (moved (front.toList.count '\n') front.toList.length)) := by
  rcases closed with rfl | ⟨lines, rfl⟩
  · refine ⟨[], .inl rfl, .nil, ⟨all, ?_⟩, ?_⟩
    · rwa [String.empty_append] at scanned
    · intro other others scannedOther
      have still : others.map (moved 0 0) = others :=
        (List.map_congr_left fun token _ => moved_zero token).trans (List.map_id others)
      rw [String.empty_append, scannedOther]
      exact congrArg Except.ok still.symm
  · obtain ⟨_, others, scannedLines, scannedBack, -⟩ := scan_newline_eq_ok_iff.mp scanned
    obtain ⟨tokens, line, column, rfl, makes⟩ := makes_of_scan scannedLines
    let lineEnd : Token := ⟨.newline, .text "\n", .number (1 + lines.toList.count '\n' : Nat),
      .number lines.toList.length⟩
    have isLineEnd : lineEnd.kind = .newline := rfl
    have endless : Endless [lineEnd] := Endless.nil.cons isLineEnd (by decide)
    refine ⟨tokens ++ [lineEnd], .inr ⟨tokens, lineEnd, rfl, isLineEnd⟩,
      makes.endless.append endless, ⟨others, scannedBack⟩, ?_⟩
    intro other others scannedOther
    have count : (lines ++ "\n").toList.count '\n' = 1 + lines.toList.count '\n' := by
      simp [Nat.add_comm]
    have length : (lines ++ "\n").toList.length = lines.toList.length + 1 := by simp
    rw [scan_newline_both scannedLines scannedOther, joinLines, List.dropLast_concat, count, length,
      List.append_assoc, List.singleton_append]

/-- A comment alone is one token. -/
theorem scan_comment {comment : String} (oneLine : '\n' ∉ comment.toList) :
    ∃ remark last, scan ("REM" ++ comment) = .ok [remark, last] ∧ remark.kind = .remark ∧
      last.kind = .endOfFile := by
  obtain ⟨value, makes⟩ := Makes.comment oneLine (by simp [Front]) Makes.nil
  have spelling : remarkWord ++ comment.toList ++ [] = ("REM" ++ comment).toList := by
    rw [List.append_nil, String.toList_append]
    rfl
  rw [spelling] at makes
  obtain ⟨front, line, column, scanned, made⟩ := scan_of_makes makes
  obtain ⟨remark, rfl, isRemark⟩ := List.map_eq_singleton_iff.mp made
  exact ⟨remark, endOfFile line column, scanned, congrArg Prod.fst isRemark, rfl⟩

end Token

namespace Source

open Program Grammar Token

/-- A comment on a line of its own, at the front of a program or behind any of its line ends,
makes a text that is rejected at the end of that line. At the end of a program that is empty or
ends in a line end, a comment without the end of its line makes no difference.

In front of the comment stand whole lines, whose tokens derive a program by themselves. Reading gets
through them, passes the comment, and meets a line end where a line number is due. Without that line
end the comment stands at the end of the file, where the grammar allows it. -/
theorem program_commentLine {front back comment : String} {program : Program}
    (accepted : Source.program (front ++ back) = .ok program)
    (closed : front = "" ∨ ∃ lines, front = lines ++ "\n") (oneLine : '\n' ∉ comment.toList) :
    let above := front ++ ("REM" ++ comment)
    let lineEnd : Token := ⟨.newline, .text "\n", .number (1 + front.toList.count '\n' : Nat),
      .number above.toList.length⟩
    Source.program (above ++ "\n" ++ back) = .error (.grammar ⟨.lineNumber, lineEnd⟩) ∧
      (back = "" → Source.program above = .ok program) := by
  intro above lineEnd
  obtain ⟨all, scanned, read⟩ := program_eq_ok.mp accepted
  obtain ⟨start, startClosed, startEndless, ⟨others, scannedBack⟩, behind⟩ :=
    scan_closed closed scanned
  obtain ⟨remark, last, scannedComment, isRemark, isLast⟩ := scan_comment oneLine
  let place := moved (front.toList.count '\n') front.toList.length
  have scannedAbove : scan above = .ok ((start ++ [place remark]) ++ [place last]) := by
    rw [behind _ _ scannedComment, List.append_assoc]
    rfl
  have remarks : Remarks [place remark] := by
    intro token member
    rw [List.mem_singleton.mp member]
    exact .inl isRemark
  rw [behind back others scannedBack] at scanned
  cases scanned
  have written := (ofTokens_eq_ok_iff _ _).mp read
  constructor
  · obtain ⟨body, line, column, rfl, makes⟩ := makes_of_scan scannedBack
    have endless : Endless (body.map place) := List.forall_mem_map.mpr makes.endless
    rw [List.map_append, ← List.append_assoc, input_eq rfl (startEndless.append endless) rfl]
      at written
    obtain ⟨first, second, writtenStart, -, -⟩ := written.split startClosed
    have count : above.toList.count '\n' = front.toList.count '\n' := by
      simp [above, List.count_eq_zero_of_not_mem oneLine]
    rw [program_eq_grammar_iff]
    refine ⟨_, scan_newline_both scannedAbove scannedBack, ?_⟩
    rw [joinLines, List.dropLast_concat, count, List.append_assoc]
    exact ofTokens_lineEnd writtenStart startClosed remarks rfl
  · rintro rfl
    cases scannedBack
    rw [input_eq rfl startEndless rfl] at written
    have further := written.append startClosed (.none remarks)
    rw [List.append_nil] at further
    have finished : ([place last].headD Token.pastEnd).kind = .endOfFile := isLast
    refine program_eq_ok.mpr ⟨_, scannedAbove, (ofTokens_eq_ok_iff _ _).mpr ?_⟩
    rwa [input_eq rfl further.endless finished]

/-- Behind a program a comment is passed, but not with the end of its line. -/
theorem program_commentLine_last :
    let lineEnd : Token := ⟨.newline, .text "\n", .number 2, .number 17⟩
    Source.program "10 END\n" = .ok [⟨.number 10, [.stop]⟩] ∧
      Source.program "10 END\nREM 20 END\n" = .error (.grammar ⟨.lineNumber, lineEnd⟩) ∧
      Source.program "10 END\nREM 20 END" = .ok [⟨.number 10, [.stop]⟩] := by
  intro lineEnd
  have accepted : Source.program ("10 END\n" ++ "") = .ok [⟨.number 10, [.stop]⟩] := by
    decide +kernel
  have closed : "10 END\n" = "10 END" ++ "\n" := by decide +kernel
  have oneLine : '\n' ∉ " 20 END".toList := by decide +kernel
  obtain ⟨rejected, passed⟩ := program_commentLine accepted (.inr ⟨_, closed⟩) oneLine
  have above : "10 END\n" ++ ("REM" ++ " 20 END") = "10 END\nREM 20 END" := by decide +kernel
  have ended : "10 END\nREM 20 END" ++ "\n" ++ "" = "10 END\nREM 20 END\n" := by decide +kernel
  have count : "10 END\n".toList.count '\n' = 1 := by decide +kernel
  have length : "10 END\nREM 20 END".toList.length = 17 := by decide +kernel
  rw [above, ended, count, length] at rejected
  rw [above] at passed
  exact ⟨accepted, rejected, passed rfl⟩

/-- A comment line in front of a program is not ignored. -/
theorem program_commentLine_first :
    let lineEnd : Token := ⟨.newline, .text "\n", .number 1, .number 5⟩
    Source.program "10 END\n" = .ok [⟨.number 10, [.stop]⟩] ∧
      Source.program "REM x\n10 END\n" = .error (.grammar ⟨.lineNumber, lineEnd⟩) ∧
      GrammarError.message ⟨.lineNumber, lineEnd⟩ =
        "Era esperado número de linha, encontrado NEWLINE na linha 1" := by
  decide +kernel

end Source

end LineBasic
