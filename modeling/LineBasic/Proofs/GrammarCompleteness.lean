import LineBasic.Proofs.GrammarSoundness

/-!
# What tokens write is read

Tokens that write something are read as just that, wherever they stand, provided that
what follows them does not continue it. What must not follow is named at each level: an
operator after an expression, a comma after a statement, a colon after the statements of
a line.

For a chain the statement is stronger. Reading up to the end of a shorter chain is
reading the shorter chain and then continuing it from its value, whatever follows; so
the induction over a chain, which takes operands off at its end, fits a loop that reads
them from the front. Together with soundness this gives the main theorem: reading
accepts exactly what the grammar derives, and the grammar derives at most one program
from any list of tokens.
-/

namespace LineBasic.Program

open Reading

namespace Grammar

/-- Tokens that write a value are read as that value, if what follows is allowed. -/
def Complete {α : Type} (reading : Reading α) (Writes : List Token → α → Prop)
    (Follows : Token.Kind → Prop) : Prop :=
  ∀ {tokens : List Token} {value : α} {before after : Cursor}, Writes tokens value →
    before.Passes tokens after → Follows after.current.kind → reading before = (.ok value, after)

/-! ## Expressions -/

/-- What reading does at the tokens of an expression. A factor is read whatever follows.
Terms and expressions are read up to their end and then continued; an expression ends in
a term, which a multiplication would continue. -/
def Completes : Level → List Token → Expr → Prop
  | .factor, tokens, value => ∀ {before after : Cursor}, before.Passes tokens after →
      factor before = (.ok value, after)
  | .term, tokens, value => ∀ {before after : Cursor}, before.Passes tokens after →
      term before = chainOn productOperator? factor value after
  | .expr, tokens, value => ∀ {before after : Cursor}, before.Passes tokens after →
      productOperator? after.current.kind = none →
      expr before = chainOn sumOperator? term value after

/-- A multiplication or division continues a term. -/
theorem productOperator?_of {kind : Token.Kind} {op : ArithOp} (isArith : kind = .arith op)
    (multiplies : op = .times ∨ op = .dividedBy) : productOperator? kind = some op := by
  rw [isArith]
  rcases multiplies with rfl | rfl <;> rfl

/-- An addition or subtraction continues an expression and no term. -/
theorem sumOperator?_of {kind : Token.Kind} {op : ArithOp} (isArith : kind = .arith op)
    (adds : op = .plus ∨ op = .minus) :
    sumOperator? kind = some op ∧ productOperator? kind = none := by
  rw [isArith]
  rcases adds with rfl | rfl <;> exact ⟨rfl, rfl⟩

/-- No operator continues an expression in front of a closing parenthesis. -/
theorem chainOn_closing {operator? : Token.Kind → Option ArithOp} {operand : Reading Expr}
    {cursor : Cursor} (value : Expr) (closes : cursor.current.kind = .rightParen)
    (stops : operator? .rightParen = none) :
    chainOn operator? operand value cursor = (.ok value, cursor) :=
  chainOn_stop value (by rw [closes, stops])

/-- An expression at every level is read up to its end. -/
theorem Expression.completes {level : Level} {tokens : List Token} {value : Expr}
    (written : Expression level tokens value) : Completes level tokens value := by
  induction written with
  | number isNumber =>
    intro before after passed
    obtain ⟨rfl, rest⟩ := passed.uncons
    obtain rfl := rest.eq_of_nil
    rw [factor_eq, factorOf, kind_bind, isNumber]
    rfl
  | name isName =>
    intro before after passed
    obtain ⟨rfl, rest⟩ := passed.uncons
    obtain rfl := rest.eq_of_nil
    rw [factor_eq, factorOf, kind_bind, isName]
    rfl
  | @parentheses opening closing tokens inner opens inside closes inductionHypothesis =>
    intro before after passed
    obtain ⟨rfl, rest⟩ := passed.uncons
    obtain ⟨between, passedInside, passedClosing⟩ := rest.split
    obtain ⟨rfl, finish⟩ := passedClosing.uncons
    obtain rfl := finish.eq_of_nil
    have read : expr before.advance = (.ok inner, between) := by
      rw [inductionHypothesis passedInside (by rw [closes]; rfl)]
      exact chainOn_closing inner closes rfl
    rw [factor_eq, factorOf, kind_bind, opens]
    dsimp only
    rw [advance_bind, bind_ok read, kind_bind, closes]
    rfl
  | factor alone inductionHypothesis =>
    intro before after passed
    rw [Reading.term, termOf, chain_eq, bind_ok (inductionHypothesis passed)]
  | @product first second sign op left right chain signed multiplies last chainRead lastRead =>
    intro before after passed
    obtain ⟨between, passedChain, rest⟩ := passed.split
    obtain ⟨rfl, passedLast⟩ := rest.uncons
    rw [chainRead passedChain, chainOn_operator rfl Forwards.factor left
      (productOperator?_of signed multiplies), bind_ok (lastRead passedLast)]
  | @term tokens only alone inductionHypothesis =>
    intro before after passed stop
    have read : Reading.term before = (.ok only, after) := by
      rw [inductionHypothesis passed, chainOn_stop only stop]
    rw [expr, exprOf, chain_eq]
    exact bind_ok read
  | @sum first second sign op left right chain signed adds last chainRead lastRead =>
    intro before after passed stop
    obtain ⟨between, passedChain, rest⟩ := passed.split
    obtain ⟨rfl, passedLast⟩ := rest.uncons
    obtain ⟨continues, notProduct⟩ := sumOperator?_of signed adds
    have read : Reading.term between.advance = (.ok right, after) := by
      rw [lastRead passedLast, chainOn_stop right stop]
    rw [chainRead passedChain notProduct, chainOn_operator rfl Forwards.term left continues,
      bind_ok read]

/-- The kinds that continue no expression. -/
def EndsExpression (kind : Token.Kind) : Prop := ∀ op : ArithOp, kind ≠ .arith op

/-- An expression that no operator continues is read as it is written. -/
theorem expr_complete : Complete expr (Expression .expr) EndsExpression := by
  intro tokens value before after written passed ends
  have noProduct : productOperator? after.current.kind = none := by
    cases found : productOperator? after.current.kind with
    | none => rfl
    | some op => exact absurd (productOperator?_eq_some found).1 (ends op)
  have noSum : sumOperator? after.current.kind = none := by
    cases found : sumOperator? after.current.kind with
    | none => rfl
    | some op => exact absurd (sumOperator?_eq_some found).1 (ends op)
  rw [written.completes passed noProduct, chainOn_stop value noSum]

/-! ## Statements -/

section Items

variable {α : Type} {separator : Token.Kind} {item : Reading α} {Part : List Token → α → Prop}
  {Follows : Token.Kind → Prop}

/-- After a separator, written parts are read by the loop. The bound shrinks with the
rest, of which every round passes a separator. -/
theorem itemsFrom_complete (complete : Complete item Part Follows)
    (separable : Follows separator) (other : separator ≠ .endOfFile) {tokens : List Token}
    {parts : List α} (written : Separated separator Part tokens parts) {bound : List Token}
    {before after : Cursor} (separates : before.current.kind = separator)
    (passed : before.advance.Passes tokens after) (follows : Follows after.current.kind)
    (stop : after.current.kind ≠ separator) (enough : before.rest.length ≤ bound.length) :
    itemsFrom separator item bound before = (.ok parts, after) := by
  have inside : before.current.kind ≠ .endOfFile := separates ▸ other
  induction written generalizing bound before with
  | one only =>
    cases bound with
    | nil => simp [Cursor.rest_eq inside] at enough
    | cons token bound =>
      rw [itemsFrom_cons token bound separates, bind_ok (complete only passed follows),
        bind_ok (itemsFrom_stop bound stop)]
      rfl
  | more first isMark rest inductionHypothesis =>
    cases bound with
    | nil => simp [Cursor.rest_eq inside] at enough
    | cons token bound =>
      obtain ⟨between, passedFirst, atMark⟩ := passed.split
      obtain ⟨rfl, passedRest⟩ := atMark.uncons
      have read := complete first passedFirst (isMark ▸ separable)
      have shorter : between.rest.length ≤ bound.length := by
        have shrunk := passedFirst.rest_length_le
        rw [advance_rest_length] at shrunk
        simp only [List.length_cons] at enough
        omega
      rw [itemsFrom_cons token bound separates, bind_ok read,
        bind_ok (inductionHypothesis isMark passedRest shorter (isMark ▸ other))]
      rfl

/-- Written parts are read if each part is, and if what follows is no separator. -/
theorem items_complete (complete : Complete item Part Follows)
    (separable : Follows separator) (other : separator ≠ .endOfFile) :
    Complete (items separator item) (Separated separator Part)
      (fun kind => Follows kind ∧ kind ≠ separator) := by
  intro tokens parts before after written passed ⟨follows, stop⟩
  cases written with
  | one only =>
    rw [items, bind_ok (complete only passed follows), remaining_bind,
      bind_ok (itemsFrom_stop _ stop)]
    rfl
  | more first separates rest =>
    obtain ⟨between, passedFirst, atMark⟩ := passed.split
    obtain ⟨rfl, passedRest⟩ := atMark.uncons
    have read := complete first passedFirst (separates ▸ separable)
    have others := itemsFrom_complete complete separable other rest separates passedRest
      follows stop (Nat.le_refl _)
    rw [items, bind_ok read, remaining_bind, bind_ok others]
    rfl

end Items

/-- What may be printed is read as it is written. -/
theorem printItem_complete : Complete printItem Item EndsExpression := by
  intro tokens item before after written passed ends
  cases written with
  | string isString =>
    obtain ⟨rfl, rest⟩ := passed.uncons
    obtain rfl := rest.eq_of_nil
    rw [printItem, kind_bind, isString]
    rfl
  | expression written =>
    have read := expr_complete written passed ends
    obtain ⟨first, others, rfl, begins⟩ := written.begins
    obtain ⟨rfl, -⟩ := passed.uncons
    rw [printItem, kind_bind]
    rcases begins with found | found | found <;> rw [found] <;> exact bind_ok read

/-- A required token that is there is passed. -/
theorem required_found {wanted : Token.Kind} {cursor : Cursor} (expectation : Expectation)
    (found : cursor.current.kind = wanted) :
    required wanted expectation cursor = (.ok cursor.current.value, cursor.advance) :=
  required_eq_ok_iff.mpr ⟨found, rfl, rfl⟩

/-- A comparison that is there is passed. -/
theorem comparison_found {which : Comparison} {cursor : Cursor}
    (found : cursor.current.kind = .comparison which) :
    comparison cursor = (.ok which, cursor.advance) := by
  rw [comparison, kind_bind, found]
  rfl

/-- The kinds that continue no statement: no operator and no comma. -/
def EndsStatement (kind : Token.Kind) : Prop := EndsExpression kind ∧ kind ≠ .comma

/-- A statement of one word is read as soon as the word is seen. -/
theorem oneWord_complete {word : Token} {before after : Cursor} (stmt : Stmt)
    (passed : before.Passes [word] after) : oneWord stmt before = (.ok stmt, after) := by
  obtain ⟨rfl, rest⟩ := passed.uncons
  obtain rfl := rest.eq_of_nil
  rfl

/-- A word and the required token behind it are read together. -/
theorem operand_complete {wanted : Token.Kind} {expectation : Expectation} {build : Value → Stmt}
    {word operand : Token} {before after : Cursor} (found : operand.kind = wanted)
    (passed : before.Passes [word, operand] after) :
    (do advance; let value ← required wanted expectation; pure (build value)) before =
      (.ok (build operand.value), after) := by
  obtain ⟨rfl, atOperand⟩ := passed.uncons
  obtain ⟨rfl, rest⟩ := atOperand.uncons
  obtain rfl := rest.eq_of_nil
  rw [advance_bind, bind_ok (required_found expectation found)]
  rfl

/-- Two sides with a comparison between them are read as a condition, if no operator
continues the right side. -/
theorem condition_complete {first second : List Token} {sign : Token} {left right : Expr}
    {which : Comparison} {before after : Cursor} (leftSide : Expression .expr first left)
    (compares : sign.kind = .comparison which) (rightSide : Expression .expr second right)
    (passed : before.Passes (first ++ sign :: second) after)
    (ends : EndsExpression after.current.kind) :
    condition before = (.ok ⟨left, .known which, right⟩, after) := by
  obtain ⟨between, passedLeft, atSign⟩ := passed.split
  obtain ⟨rfl, passedRight⟩ := atSign.uncons
  have leftRead := expr_complete leftSide passedLeft (by simp [EndsExpression, compares])
  have rightRead := expr_complete rightSide passedRight ends
  rw [condition, bind_ok leftRead, bind_ok (comparison_found compares), bind_ok rightRead]
  rfl

/-- A statement that nothing continues is read as it is written. -/
theorem statement_complete : Complete statement Statement EndsStatement := by
  intro tokens stmt before after written passed ends
  cases written with
  | @assign word name equals tokens value begins isName isEquals written =>
    obtain ⟨rfl, atName⟩ := passed.uncons
    obtain ⟨rfl, atEquals⟩ := atName.uncons
    obtain ⟨rfl, atValue⟩ := atEquals.uncons
    rw [statement, kind_bind, begins]
    change assignment before = _
    rw [assignment, advance_bind, current_bind, bind_ok (required_found _ isName),
      bind_ok (required_found _ isEquals), bind_ok (expr_complete written atValue ends.1)]
    rfl
  | print begins listed =>
    obtain ⟨rfl, atItems⟩ := passed.uncons
    have read := items_complete printItem_complete (by simp [EndsExpression]) (by decide) listed
      atItems ends
    rw [statement, kind_bind, begins]
    change print before = _
    rw [print, advance_bind, bind_ok read]
    rfl
  | branch begins leftSide compares rightSide isThen isNumber =>
    obtain ⟨rfl, atLeft⟩ := passed.uncons
    rw [← List.cons_append, ← List.append_assoc] at atLeft
    obtain ⟨atThen, passedCondition, rest⟩ := atLeft.split
    obtain ⟨rfl, atTarget⟩ := rest.uncons
    obtain ⟨rfl, finish⟩ := atTarget.uncons
    obtain rfl := finish.eq_of_nil
    have read := condition_complete leftSide compares rightSide passedCondition
      (by simp [EndsExpression, isThen])
    rw [statement, kind_bind, begins]
    change branch before = _
    rw [branch, advance_bind, bind_ok read, bind_ok (required_found _ isThen),
      bind_ok (required_found _ isNumber)]
    rfl
  | input begins isName =>
    obtain ⟨rfl, -⟩ := passed.uncons
    rw [statement, kind_bind, begins]
    exact operand_complete isName passed
  | goto begins isNumber =>
    obtain ⟨rfl, -⟩ := passed.uncons
    rw [statement, kind_bind, begins]
    exact operand_complete isNumber passed
  | gosub begins isNumber =>
    obtain ⟨rfl, -⟩ := passed.uncons
    rw [statement, kind_bind, begins]
    exact operand_complete isNumber passed
  | ret begins =>
    obtain ⟨rfl, -⟩ := passed.uncons
    rw [statement, kind_bind, begins]
    exact oneWord_complete .ret passed
  | stop begins =>
    obtain ⟨rfl, -⟩ := passed.uncons
    rw [statement, kind_bind, begins]
    exact oneWord_complete .stop passed
  | remark begins =>
    obtain ⟨rfl, -⟩ := passed.uncons
    rw [statement, kind_bind, begins]
    exact oneWord_complete .remark passed

/-! ## Lines -/

/-- A line is read up to the line end or the end of the file behind it. -/
theorem line_complete {tokens : List Token} {written : Line} {before after : Cursor}
    (derived : NumberedLine tokens written) (passed : before.Passes tokens after)
    (ends : after.current.kind = .newline ∨ after.current.kind = .endOfFile) :
    line before =
      (.ok written, if after.current.kind = .newline then after.advance else after) := by
  cases derived with
  | intro isNumber body =>
    obtain ⟨rfl, atBody⟩ := passed.uncons
    have stops : EndsStatement after.current.kind ∧ after.current.kind ≠ .colon := by
      rcases ends with found | found <;> simp [EndsStatement, EndsExpression, found]
    have read := items_complete statement_complete (by simp [EndsStatement, EndsExpression])
      (by decide) body atBody stops
    have ended : lineEnd before.current.line after =
        (.ok (), if after.current.kind = .newline then after.advance else after) := by
      rw [lineEnd_eq_ok_iff]
      rcases ends with found | found <;> simp [found]
    rw [line, current_bind, bind_ok (required_found _ isNumber), statements, bind_ok read,
      bind_ok ended]
    rfl

/-- Comments in front of anything else are skipped exactly. -/
theorem skipRemarks_complete {comments bound : List Token} {before after : Cursor}
    (remarks : Remarks comments) (passed : before.Passes comments after)
    (stop : ¬ IsRemark after.current.kind) (enough : before.rest.length ≤ bound.length) :
    skipRemarks bound before = (.ok (), after) := by
  induction comments generalizing bound before with
  | nil =>
    obtain rfl := passed.eq_of_nil
    exact skipRemarks_stop bound stop
  | cons comment comments inductionHypothesis =>
    obtain ⟨rfl, rest⟩ := passed.uncons
    have isRemark : IsRemark before.current.kind := remarks _ List.mem_cons_self
    have others : Remarks comments := fun token member => remarks token (.tail _ member)
    rw [passed.rest] at enough
    cases bound with
    | nil => simp at enough
    | cons token bound =>
      rw [skipRemarks_remark token bound isRemark]
      refine inductionHypothesis others rest ?_
      rw [rest.rest]
      simpa using enough

/-- In front of tokens of which none ends the file, the file does not end. -/
theorem Endless.inside {tokens : List Token} {before after : Cursor} (endless : Endless tokens)
    (filled : tokens ≠ []) (passed : before.Passes tokens after) :
    before.current.kind ≠ .endOfFile := by
  cases tokens with
  | nil => exact absurd rfl filled
  | cons token tokens =>
    obtain ⟨rfl, -⟩ := passed.uncons
    exact endless _ List.mem_cons_self

/-- A bound no shorter than a rest that begins with tokens holds a token. -/
theorem bound_of_passes {tokens bound : List Token} {before after : Cursor} (filled : tokens ≠ [])
    (passed : before.Passes tokens after) (enough : before.rest.length ≤ bound.length) :
    ∃ token others, bound = token :: others := by
  cases bound with
  | nil =>
    rw [passed.rest] at enough
    simp [filled] at enough
  | cons token others => exact ⟨token, others, rfl⟩

/-- Comments and a line are read together, and further lines behind them. -/
theorem linesFrom_line {comments tokens bound : List Token} {token : Token} {first : Line}
    {before after : Cursor} (remarks : Remarks comments) (written : NumberedLine tokens first)
    (passed : before.Passes (comments ++ tokens) after)
    (ends : after.current.kind = .newline ∨ after.current.kind = .endOfFile) :
    linesFrom (token :: bound) before =
      (do let rest ← linesFrom bound; pure (first :: rest))
        (if after.current.kind = Token.Kind.newline then after.advance else after) := by
  have filled : tokens ≠ [] := by
    cases written
    exact List.cons_ne_nil _ _
  have inside := (remarks.endless.append written.endless).inside (by simp [filled]) passed
  obtain ⟨atLine, passedComments, passedLine⟩ := passed.split
  have atNumber : atLine.current.kind = .number := by
    cases written with
    | intro isNumber body =>
      obtain ⟨rfl, -⟩ := passedLine.uncons
      exact isNumber
  have skipped := skipRemarks_complete remarks passedComments (by simp [IsRemark, atNumber])
    (Nat.le_refl _)
  rw [linesFrom_cons token bound inside skipped, if_neg (by simp [atNumber]),
    bind_ok (line_complete written passedLine ends)]

/-- Written lines are read up to the end of the file, under any bound no shorter than the
rest. -/
theorem linesFrom_complete {tokens : List Token} {lines : Program} (written : Lines tokens lines)
    {bound : List Token} {before after : Cursor} (passed : before.Passes tokens after)
    (finished : after.current.kind = .endOfFile) (enough : before.rest.length ≤ bound.length) :
    linesFrom bound before = (.ok lines, after) := by
  induction written generalizing bound before with
  | @none comments remarks =>
    by_cases filled : comments = []
    · subst filled
      obtain rfl := passed.eq_of_nil
      exact linesFrom_end bound finished
    · obtain ⟨token, others, rfl⟩ := bound_of_passes filled passed enough
      have skipped := skipRemarks_complete remarks passed (by simp [IsRemark, finished])
        (Nat.le_refl _)
      rw [linesFrom_cons token others (remarks.endless.inside filled passed) skipped,
        if_pos finished]
  | last remarks written =>
    obtain ⟨token, others, rfl⟩ := bound_of_passes (by cases written; simp) passed enough
    rw [linesFrom_line remarks written passed (.inr finished), if_neg (by simp [finished]),
      bind_ok (linesFrom_end others finished)]
    rfl
  | @more comments tokens rest lineEnd first lines remarks written ends others
      inductionHypothesis =>
    obtain ⟨token, bound, rfl⟩ := bound_of_passes (by cases written; simp) passed enough
    rw [← List.append_assoc] at passed
    obtain ⟨atLineEnd, passedLine, atEnd⟩ := passed.split
    obtain ⟨rfl, passedRest⟩ := atEnd.uncons
    have shorter : atLineEnd.advance.rest.length ≤ bound.length := by
      rw [passed.rest] at enough
      simp only [List.length_append, List.length_cons, passedRest.rest] at enough ⊢
      omega
    rw [linesFrom_line remarks written passedLine (.inl ends), if_pos ends,
      bind_ok (inductionHypothesis passedRest shorter)]
    rfl

/-- A written program is read up to the end of the file. -/
theorem program_complete {tokens : List Token} {lines : Program} (written : Lines tokens lines)
    {before after : Cursor} (passed : before.Passes tokens after)
    (finished : after.current.kind = .endOfFile) :
    Reading.program before = (.ok lines, after) :=
  linesFrom_complete written passed finished (Nat.le_refl _)

/-! ## Whole token lists -/

/-- The program that a token list makes is the one that its input writes. -/
theorem ofTokens_eq_ok_iff (tokens : List Token) (program : Program) :
    ofTokens tokens = .ok program ↔ Lines (input tokens) program := by
  obtain ⟨rest, whole, finished⟩ := input_append tokens
  constructor
  · intro succeeded
    obtain ⟨passed, passes, written, atEnd⟩ := program_sound (Prod.ext succeeded rfl)
    have whole : input tokens = passed := input_eq passes.rest written.endless atEnd
    exact whole ▸ written
  · intro written
    have passes : (Cursor.start tokens).Passes (input tokens) ⟨rest, 0 + (input tokens).length⟩ :=
      ⟨whole, rfl⟩
    rw [ofTokens, program_complete written passes finished]

end Grammar

/-- Reading accepts exactly what the grammar derives from the tokens in front of the end
of the file, gives what it derives, and fails in every other case; and whatever tokens
are given, the grammar derives at most one program from them.

That what is read is derived, and that what is derived is read, are two inductions, one over the
reader and one over derivations; together they make the first statement. The second is its negation.
For the third, two programs derived from the same tokens are both what reading gives, and it gives
one. -/
theorem ofTokens_exact (tokens : List Token) :
    (∀ program, ofTokens tokens = .ok program ↔
      Grammar.Lines (Grammar.input tokens) program) ∧
    ((∃ error, ofTokens tokens = .error error) ↔
      ¬ ∃ program, Grammar.Lines (Grammar.input tokens) program) ∧
    ∀ program other, Grammar.Lines tokens program → Grammar.Lines tokens other →
      program = other := by
  refine ⟨Grammar.ofTokens_eq_ok_iff tokens, ?_, ?_⟩
  · simp only [← Grammar.ofTokens_eq_ok_iff tokens]
    cases ofTokens tokens with
    | ok program => simp
    | error error => simp
  · intro program other written alsoWritten
    have whole : Grammar.input tokens = tokens := Grammar.input_of_endless written.endless
    have one := (Grammar.ofTokens_eq_ok_iff tokens program).mpr (whole.symm ▸ written)
    have two := (Grammar.ofTokens_eq_ok_iff tokens other).mpr (whole.symm ▸ alsoWritten)
    exact Except.ok.inj (one.symm.trans two)

end LineBasic.Program
