import LineBasic.Proofs.Lookahead

/-!
# Reading with a limit

The loops of reading are bounded by the tokens left, and so is the nesting of parentheses. Here is
the same reading with a limit in place of these bounds. A loop goes on as long as the current token
says so, what stands in parentheses is read as any expression, and a step that gets to the limit has
no outcome. So a step comes to an end by itself if it has an outcome with some limit.

It does with every limit above the number of tokens left, and the outcome is that of the bounded
step. Each round of a loop, and each parenthesis, passes a token of the list, since past its end the
current token ends every loop and begins nothing. The same argument shows that reading which looks
at every token before it is passed never passes the end of the file, whether it succeeds or fails.
-/

namespace LineBasic.Program

open Grammar (Endless)

variable {α β : Type}

/-- A reading step that may get to a limit. It has an outcome only if it does not. -/
abbrev Limited (α : Type) : Type := ExceptT GrammarError (StateT Cursor Option) α

namespace Limited

/-- The limit has been reached. -/
def exhausted : Limited α := fun _ => none

/-- A step that has no loops. -/
def lift (reading : Reading α) : Limited α := fun cursor => some (reading cursor)

/-! ## Expressions -/

/-- Joins further operands to what stands on the left while operators follow. -/
def chainFrom (operator? : Token.Kind → Option ArithOp) (operand : Limited Expr) :
    (limit : Nat) → (left : Expr) → Limited Expr
  | 0, _ => exhausted
  | limit + 1, left => do
    match operator? (← lift Reading.kind) with
    | none => pure left
    | some op =>
      lift Reading.advance
      let right ← operand
      chainFrom operator? operand limit (.binary op left right)

/-- Operands joined by operators, grouped to the left. -/
def chain (operator? : Token.Kind → Option ArithOp) (operand : Limited Expr) (limit : Nat) :
    Limited Expr := do
  let first ← operand
  chainFrom operator? operand limit first

/-- A chain of factors, given how to read one. -/
def termOf (factor : Limited Expr) (limit : Nat) : Limited Expr :=
  chain Reading.productOperator? factor limit

/-- A chain of terms, given how to read a factor. -/
def exprOf (factor : Limited Expr) (limit : Nat) : Limited Expr :=
  chain Reading.sumOperator? (termOf factor limit) limit

/-- A factor. What stands in parentheses is an expression. -/
def factor : (limit : Nat) → Limited Expr
  | 0 => exhausted
  | limit + 1 => do
    match ← lift Reading.kind with
    | .number =>
      let value ← lift Reading.take
      pure (.constant value)
    | .identifier =>
      let name ← lift Reading.take
      pure (.var name)
    | .leftParen =>
      lift Reading.advance
      let inner ← exprOf (factor limit) limit
      match ← lift Reading.kind with
      | .rightParen =>
        lift Reading.advance
        pure inner
      | _ => lift (Reading.expected .closingParen)
    | _ => lift (Reading.expected .factor)

/-- A term. -/
def term (limit : Nat) : Limited Expr := termOf (factor limit) limit

/-- An expression. -/
def expr (limit : Nat) : Limited Expr := exprOf (factor limit) limit

/-! ## Statements -/

/-- Further items while separators follow. -/
def itemsFrom (separator : Token.Kind) (item : Limited α) : (limit : Nat) → Limited (List α)
  | 0 => exhausted
  | limit + 1 => do
    if (← lift Reading.kind) = separator then
      lift Reading.advance
      let first ← item
      let rest ← itemsFrom separator item limit
      pure (first :: rest)
    else
      pure []

/-- One or more items with separators between them. -/
def items (separator : Token.Kind) (item : Limited α) (limit : Nat) : Limited (List α) := do
  let first ← item
  let rest ← itemsFrom separator item limit
  pure (first :: rest)

/-- An assignment, whose first token is passed unseen. -/
def assignment (limit : Nat) : Limited Stmt := do
  lift Reading.advance
  let variableLine := (← lift Reading.current).line
  let name ← lift (Reading.required .identifier .variableToAssign)
  let _ ← lift (Reading.required (.comparison .equal) (.equalsSign variableLine))
  let value ← expr limit
  pure (.assign name value)

/-- What may be printed. -/
def printItem (limit : Nat) : Limited PrintItem := do
  match ← lift Reading.kind with
  | .string =>
    let content ← lift Reading.take
    pure (.text content)
  | .number | .identifier | .leftParen =>
    let value ← expr limit
    pure (.value value)
  | _ => lift (Reading.expected .printItem)

/-- A print statement, whose first token is passed unseen. -/
def print (limit : Nat) : Limited Stmt := do
  lift Reading.advance
  let printed ← items .comma (printItem limit) limit
  pure (.print printed)

/-- Two expressions with a comparison between them. -/
def condition (limit : Nat) : Limited Condition := do
  let left ← expr limit
  let which ← lift Reading.comparison
  let right ← expr limit
  pure ⟨left, .known which, right⟩

/-- A conditional jump, whose first token is passed unseen. -/
def branch (limit : Nat) : Limited Stmt := do
  lift Reading.advance
  let tested ← condition limit
  let _ ← lift (Reading.required (.keyword .thenWord) .thenWord)
  let target ← lift (Reading.required .number .branchTarget)
  pure (.branch tested target)

/-- A statement, chosen by its first token. -/
def statement (limit : Nat) : Limited Stmt := do
  match ← lift Reading.kind with
  | .keyword .letWord => assignment limit
  | .keyword .printWord => print limit
  | .keyword .inputWord => lift Reading.input
  | .keyword .ifWord => branch limit
  | .keyword .gotoWord => lift Reading.goto
  | .keyword .gosubWord => lift Reading.gosub
  | .keyword .returnWord => lift (Reading.oneWord .ret)
  | .keyword .endWord => lift (Reading.oneWord .stop)
  | .remark => lift (Reading.oneWord .remark)
  | _ => lift (Reading.expected .statement)

/-- Statements with colons between them. -/
def statements (limit : Nat) : Limited (List Stmt) := items .colon (statement limit) limit

/-! ## Lines -/

/-- A numbered line. -/
def line (limit : Nat) : Limited Line := do
  let opened := (← lift Reading.current).line
  let lineNumber ← lift (Reading.required .number .lineNumber)
  let body ← statements limit
  lift (Reading.lineEnd opened)
  pure ⟨lineNumber, body⟩

/-- Passes comments while they follow. -/
def skipRemarks : (limit : Nat) → Limited Unit
  | 0 => exhausted
  | limit + 1 => do
    match ← lift Reading.kind with
    | .remark | .remarkText =>
      lift Reading.advance
      skipRemarks limit
    | _ => pure ()

/-- Lines while the file does not end. -/
def program : (limit : Nat) → Limited Program
  | 0 => exhausted
  | limit + 1 => do
    if ← lift Reading.atEnd then
      pure []
    else
      skipRemarks (limit + 1)
      if ← lift Reading.atEnd then
        pure []
      else
        let first ← line (limit + 1)
        let rest ← program limit
        pure (first :: rest)

/-! ## Coming to an end -/

open Reading

/-- At the cursor the step passes no end of the file, whether it succeeds or fails. -/
def Within (reading : Reading α) (cursor : Cursor) : Prop :=
  ∃ tokens, cursor.Passes tokens (reading cursor).2 ∧ Endless tokens

/-- At the cursor the step does not get to its limit, has the outcome of the bounded one, and has
passed no end of the file. -/
structure Ends (run : Limited α) (reading : Reading α) (cursor : Cursor) : Prop where
  outcome : run cursor = some (reading cursor)
  within : Within reading cursor

/-- Two steps come to an end if the first does and the next does where the first succeeds. -/
theorem bind_outcome {run : Limited α} {next : α → Limited β} {reading : Reading α}
    {nextReading : α → Reading β} {cursor : Cursor} (start : run cursor = some (reading cursor))
    (finish : ∀ value after, reading cursor = (.ok value, after) →
      next value after = some (nextReading value after)) :
    (run >>= next) cursor = some ((reading >>= nextReading) cursor) := by
  have unfolded : (run >>= next) cursor =
      (run cursor).bind fun outcome => ExceptT.bindCont next outcome.1 outcome.2 := rfl
  rw [unfolded, start, Option.bind_some]
  cases outcome : reading cursor with
  | mk found after =>
    cases found with
    | ok value =>
      rw [Reading.bind_ok outcome, ← finish value after outcome]
      rfl
    | error error =>
      rw [Reading.bind_error outcome]
      rfl

namespace Ends

variable {run : Limited α} {reading : Reading α} {cursor : Cursor}

/-- A bounded step that does the same at the cursor may stand in its place. -/
theorem congr (same : Reading α) (equal : reading cursor = same cursor)
    (ends : Ends run same cursor) : Ends run reading cursor := by
  constructor
  · rw [equal]
    exact ends.outcome
  · rw [Within, equal]
    exact ends.within

/-- A step without loops passes no more than the same step made of its parts. -/
theorem lifted (run : Limited α) (ends : Ends run reading cursor) :
    Ends (lift reading) reading cursor :=
  ⟨rfl, ends.within⟩

/-- A step that leaves the cursor alone. -/
theorem still (stays : (reading cursor).2 = cursor) : Ends (lift reading) reading cursor := by
  refine ⟨rfl, [], ?_, .nil⟩
  rw [stays]
  exact .refl cursor

/-- A step that passes a token which does not end the file. -/
theorem one (inside : cursor.current.kind ≠ .endOfFile)
    (moves : (reading cursor).2 = cursor.advance) : Ends (lift reading) reading cursor := by
  refine ⟨rfl, [cursor.current], ?_, Endless.nil.cons rfl inside⟩
  rw [moves]
  exact .one inside

/-- To give a value is no loop, and passes nothing. -/
theorem pure (value : α) : Ends (Pure.pure value) (Pure.pure value) cursor :=
  ⟨rfl, [], .refl cursor, .nil⟩

/-- A look at the cursor that leaves it alone comes before a step. -/
theorem seen {look : Reading β} {next : β → Limited α} {value : β}
    (looks : look cursor = (.ok value, cursor)) (ends : Ends (next value) reading cursor) :
    Ends (lift look >>= next) reading cursor := by
  refine ⟨?_, ends.within⟩
  have unfolded : (lift look >>= next) cursor =
      (some (look cursor)).bind fun outcome => ExceptT.bindCont next outcome.1 outcome.2 := rfl
  rw [unfolded, looks, ← ends.outcome]
  rfl

/-- A token that does not end the file is passed, and a step follows. -/
theorem past {next : Reading α} (inside : cursor.current.kind ≠ .endOfFile)
    (equal : reading cursor = next cursor.advance) (ends : Ends run next cursor.advance) :
    Ends (lift Reading.advance >>= fun _ => run) reading cursor := by
  obtain ⟨tokens, passed, endless⟩ := ends.within
  constructor
  · rw [equal, ← ends.outcome]
    rfl
  · rw [Within, equal]
    exact ⟨_, passed.cons inside, endless.cons rfl inside⟩

/-- Steps in sequence. -/
theorem bind {next : α → Limited β} {nextReading : α → Reading β}
    (start : Ends run reading cursor)
    (finish : ∀ value after, reading cursor = (.ok value, after) →
      Ends (next value) (nextReading value) after) :
    Ends (run >>= next) (reading >>= nextReading) cursor := by
  have outcomes := bind_outcome start.outcome fun value after found =>
    (finish value after found).outcome
  refine ⟨outcomes, ?_⟩
  obtain ⟨tokens, passed, endless⟩ := start.within
  rw [Within]
  cases outcome : reading cursor with
  | mk found after =>
    rw [outcome] at passed
    cases found with
    | error error =>
      rw [Reading.bind_error outcome]
      exact ⟨tokens, passed, endless⟩
    | ok value =>
      obtain ⟨others, passedOn, endlessOn⟩ := (finish value after outcome).within
      rw [Reading.bind_ok outcome]
      exact ⟨tokens ++ others, passed.trans passedOn, endless.append endlessOn⟩

/-- What a step leaves was there before it. -/
theorem rest_length_le {result : Except GrammarError α} {after : Cursor}
    (ends : Ends run reading cursor) (outcome : reading cursor = (result, after)) :
    after.rest.length ≤ cursor.rest.length := by
  obtain ⟨tokens, passed, -⟩ := ends.within
  rw [outcome] at passed
  exact passed.rest_length_le

end Ends

/-- The step comes to an end wherever fewer tokens are left than the size. -/
def EndsWithin (size : Nat) (run : Limited α) (reading : Reading α) : Prop :=
  ∀ cursor : Cursor, cursor.rest.length < size → Ends run reading cursor

namespace EndsWithin

variable {size : Nat} {run : Limited α} {reading : Reading α}

/-- Nowhere are fewer tokens left than none. -/
theorem zero : EndsWithin 0 run reading :=
  fun _ impossible => absurd impossible (Nat.not_lt_zero _)

/-- What comes to an end everywhere does so within a size. -/
theorem of_ends (ends : ∀ cursor, Ends run reading cursor) : EndsWithin size run reading :=
  fun cursor _ => ends cursor

/-- To give a value comes to an end within any size. -/
theorem pure (value : α) : EndsWithin size (Pure.pure value) (Pure.pure value) :=
  fun _ _ => .pure value

/-- Steps in sequence. -/
theorem bind {next : α → Limited β} {nextReading : α → Reading β}
    (start : EndsWithin size run reading)
    (finish : ∀ value, EndsWithin size (next value) (nextReading value)) :
    EndsWithin size (run >>= next) (reading >>= nextReading) := by
  intro cursor short
  have first := start cursor short
  apply first.bind
  intro value after outcome
  exact finish value after (Nat.lt_of_le_of_lt (first.rest_length_le outcome) short)

/-- Past a token of the list fewer tokens are left. -/
theorem past (ends : EndsWithin size run reading) {cursor : Cursor}
    (inside : cursor.current.kind ≠ .endOfFile) (short : cursor.rest.length < size + 1) :
    Ends run reading cursor.advance := by
  rw [Cursor.rest_eq inside, List.length_cons] at short
  exact ends cursor.advance (Nat.lt_of_succ_lt_succ short)

/-- A smaller size leaves fewer cursors. -/
theorem less (ends : EndsWithin (size + 1) run reading) : EndsWithin size run reading :=
  fun cursor short => ends cursor (Nat.lt_succ_of_lt short)

end EndsWithin

/-! ### Expressions -/

/-- A loop over operands comes to an end if reading each operand does. -/
theorem chainFrom_ends {operator? : Token.Kind → Option ArithOp} {run : Limited Expr}
    {operand : Reading Expr} {limit : Nat} (stops : operator? .endOfFile = none)
    (forwards : Forwards operand) (ends : EndsWithin limit run operand) (left : Expr) :
    EndsWithin limit (chainFrom operator? run limit left) (chainOn operator? operand left) := by
  induction limit generalizing left with
  | zero => exact .zero
  | succ limit inductionHypothesis =>
    intro cursor short
    rw [chainFrom]
    apply Ends.seen (kind_apply cursor)
    cases follows : operator? cursor.current.kind with
    | none => exact .congr (pure left) (chainOn_stop left follows) (.pure left)
    | some op =>
      have inside : cursor.current.kind ≠ .endOfFile := by
        intro finished
        rw [finished, stops] at follows
        cases follows
      apply Ends.past inside (chainOn_operator stops forwards left follows)
      exact (ends.less.bind fun right => inductionHypothesis ends.less _).past inside short

/-- Terms come to an end if factors do. -/
theorem termOf_ends {run : Limited Expr} {limit : Nat}
    (ends : EndsWithin limit run Reading.factor) :
    EndsWithin limit (termOf run limit) Reading.term :=
  ends.bind fun first => chainFrom_ends rfl Forwards.factor ends first

/-- Expressions come to an end if factors do. -/
theorem exprOf_ends {run : Limited Expr} {limit : Nat}
    (ends : EndsWithin limit run Reading.factor) :
    EndsWithin limit (exprOf run limit) Reading.expr :=
  (termOf_ends ends).bind fun first => chainFrom_ends rfl Forwards.term (termOf_ends ends) first

/-- Factors come to an end, since what stands in parentheses has fewer tokens left. -/
theorem factor_ends (limit : Nat) : EndsWithin limit (factor limit) Reading.factor := by
  induction limit with
  | zero => exact .zero
  | succ limit inductionHypothesis =>
    intro cursor short
    rw [factor]
    apply Ends.congr (factorOf Reading.expr) (factor_eq cursor)
    apply (Ends.still rfl).bind
    rintro _ _ ⟨⟩
    cases found : cursor.current.kind with
    | number =>
      apply (Ends.one (by simp [found]) rfl).bind
      intro value after _
      exact .pure _
    | identifier =>
      apply (Ends.one (by simp [found]) rfl).bind
      intro name after _
      exact .pure _
    | leftParen =>
      have inside : cursor.current.kind ≠ .endOfFile := by simp [found]
      apply (Ends.one inside rfl).bind
      rintro _ _ ⟨⟩
      apply ((exprOf_ends inductionHypothesis).past inside short).bind
      intro value after _
      apply (Ends.still rfl).bind
      rintro _ _ ⟨⟩
      cases closing : after.current.kind with
      | rightParen =>
        apply (Ends.one (by simp [closing]) rfl).bind
        intro _ _ _
        exact .pure value
      | _ => exact .still rfl
    | _ => exact .still rfl

section Limit

variable (limit : Nat)

/-- A term comes to an end. -/
theorem term_ends : EndsWithin limit (term limit) Reading.term := termOf_ends (factor_ends limit)

/-- An expression comes to an end. -/
theorem expr_ends : EndsWithin limit (expr limit) Reading.expr := exprOf_ends (factor_ends limit)

/-! ### Statements -/

variable {limit} in
/-- A loop over items comes to an end if reading each item does. -/
theorem itemsFrom_ends {separator : Token.Kind} {run : Limited α} {item : Reading α}
    (other : separator ≠ .endOfFile) (forwards : Forwards item)
    (ends : EndsWithin limit run item) :
    EndsWithin limit (itemsFrom separator run limit) (itemsOn separator item) := by
  induction limit with
  | zero => exact .zero
  | succ limit inductionHypothesis =>
    intro cursor short
    rw [itemsFrom]
    apply Ends.seen (kind_apply cursor)
    by_cases separates : cursor.current.kind = separator
    · have inside : cursor.current.kind ≠ .endOfFile := separates ▸ other
      rw [if_pos separates]
      apply Ends.past inside (itemsOn_separator other forwards separates)
      exact (ends.less.bind fun first =>
        (inductionHypothesis ends.less).bind fun rest => .pure (first :: rest)).past inside short
    · rw [if_neg separates]
      exact .congr (pure []) (itemsFrom_stop _ separates) (.pure [])

variable {limit} in
/-- Items with separators between them come to an end if each does. -/
theorem items_ends {separator : Token.Kind} {run : Limited α} {item : Reading α}
    (other : separator ≠ .endOfFile) (forwards : Forwards item)
    (ends : EndsWithin limit run item) :
    EndsWithin limit (items separator run limit) (Reading.items separator item) :=
  ends.bind fun first =>
    (itemsFrom_ends other forwards ends).bind fun rest => .pure (first :: rest)

/-- A required token is passed once it has been seen. -/
theorem required_ends {wanted : Token.Kind} {expectation : Expectation}
    (other : wanted ≠ .endOfFile) (cursor : Cursor) :
    Ends (lift (required wanted expectation)) (required wanted expectation) cursor := by
  by_cases found : cursor.current.kind = wanted
  · apply Ends.one (found ▸ other)
    rw [required, kind_bind, if_pos found]
    rfl
  · apply Ends.still
    rw [required, kind_bind, if_neg found]
    rfl

/-- A comparison is passed once it has been seen. -/
theorem comparison_ends (cursor : Cursor) :
    Ends (lift Reading.comparison) Reading.comparison cursor := by
  cases found : cursor.current.kind with
  | comparison which =>
    apply Ends.one (by simp [found])
    rw [Reading.comparison, kind_bind, found]
    rfl
  | _ =>
    apply Ends.still
    rw [Reading.comparison, kind_bind, found]
    rfl

/-- An item to print comes to an end: it is a string or an expression. -/
theorem printItem_ends : EndsWithin limit (printItem limit) Reading.printItem := by
  intro cursor short
  have expression : Ends (do let value ← expr limit; pure (PrintItem.value value))
      (do let value ← Reading.expr; pure (PrintItem.value value)) cursor :=
    (expr_ends limit cursor short).bind fun _ _ _ => .pure _
  apply (Ends.still rfl).bind
  rintro _ _ ⟨⟩
  cases found : cursor.current.kind with
  | string => exact (Ends.one (by simp [found]) rfl).bind fun _ _ _ => .pure _
  | number => exact expression
  | identifier => exact expression
  | leftParen => exact expression
  | _ => exact .still rfl

/-- A condition comes to an end, since both of its sides do. -/
theorem condition_ends : EndsWithin limit (condition limit) Reading.condition :=
  (expr_ends limit).bind fun _ =>
    (EndsWithin.of_ends comparison_ends).bind fun _ =>
      (expr_ends limit).bind fun _ => .pure _

/-- The step comes to an end wherever fewer tokens are left than the size, and there it passes no
end of the file unless it begins at one. -/
structure EndsUnseen (size : Nat) (run : Limited α) (reading : Reading α) : Prop where
  outcome : ∀ cursor : Cursor, cursor.rest.length < size → run cursor = some (reading cursor)
  ends : ∀ cursor : Cursor, cursor.rest.length < size → cursor.current.kind ≠ .endOfFile →
    Ends run reading cursor

/-- A first token is passed unseen, and what follows comes to an end. -/
theorem EndsUnseen.behind {size : Nat} {run : Limited α} {reading : Reading α}
    (ends : EndsWithin size run reading) :
    EndsUnseen size (lift Reading.advance >>= fun _ => run)
      (Reading.advance >>= fun _ => reading) := by
  have further {cursor : Cursor} (short : cursor.rest.length < size) :
      Ends run reading cursor.advance := by
    apply ends
    rw [advance_rest_length]
    omega
  constructor
  · intro cursor short
    apply bind_outcome rfl
    rintro _ _ ⟨⟩
    exact (further short).outcome
  · intro cursor short inside
    apply (Ends.one inside rfl).bind
    rintro _ _ ⟨⟩
    exact further short

/-- An assignment comes to an end behind its first word. -/
theorem assignment_ends : EndsUnseen limit (assignment limit) Reading.assignment := by
  apply EndsUnseen.behind
  apply (EndsWithin.of_ends fun _ => .still rfl).bind
  intro token
  apply (EndsWithin.of_ends (required_ends (by decide))).bind
  intro name
  apply (EndsWithin.of_ends (required_ends (by decide))).bind
  intro _
  exact (expr_ends limit).bind fun _ => .pure _

/-- A print statement comes to an end behind its first word, since its items do. -/
theorem print_ends : EndsUnseen limit (print limit) Reading.print := by
  apply EndsUnseen.behind
  have forwards : Forwards Reading.printItem := Local.forwards fun _ => printItem_local
  exact (items_ends (by decide) forwards (printItem_ends limit)).bind fun _ => .pure _

/-- A branch comes to an end behind its first word, since its condition does. -/
theorem branch_ends : EndsUnseen limit (branch limit) Reading.branch := by
  apply EndsUnseen.behind
  apply (condition_ends limit).bind
  intro tested
  apply (EndsWithin.of_ends (required_ends (by decide))).bind
  intro _
  exact (EndsWithin.of_ends (required_ends (by decide))).bind fun _ => .pure _

/-- A word followed by a required token. -/
theorem operand_ends {wanted : Token.Kind} {expectation : Expectation} {build : Value → Stmt}
    (other : wanted ≠ .endOfFile) {cursor : Cursor} (inside : cursor.current.kind ≠ .endOfFile) :
    Ends (lift (do advance; let value ← required wanted expectation; pure (build value)))
      (do advance; let value ← required wanted expectation; pure (build value)) cursor := by
  apply Ends.lifted (do
    lift advance
    let value ← lift (required wanted expectation)
    pure (build value))
  apply (Ends.one inside rfl).bind
  intro _ after _
  exact (required_ends other after).bind fun _ _ _ => .pure _

/-- A statement comes to an end, whichever it is. Its first token is passed once it is known. -/
theorem statement_ends : EndsWithin limit (statement limit) Reading.statement := by
  intro cursor short
  apply (Ends.still rfl).bind
  rintro _ _ ⟨⟩
  cases found : cursor.current.kind with
  | keyword word =>
    have inside : cursor.current.kind ≠ .endOfFile := by simp [found]
    cases word with
    | letWord => exact (assignment_ends limit).ends cursor short inside
    | printWord => exact (print_ends limit).ends cursor short inside
    | inputWord => exact operand_ends (by decide) inside
    | ifWord => exact (branch_ends limit).ends cursor short inside
    | gotoWord => exact operand_ends (by decide) inside
    | gosubWord => exact operand_ends (by decide) inside
    | returnWord => exact .one inside rfl
    | endWord => exact .one inside rfl
    | thenWord => exact .still rfl
  | remark => exact .one (by simp [found]) rfl
  | _ => exact .still rfl

/-- The statements of a line come to an end, since each of them does. -/
theorem statements_ends : EndsWithin limit (statements limit) Reading.statements :=
  items_ends (by decide) (Local.forwards fun _ => statement_local) (statement_ends limit)

/-! ### Lines -/

/-- A line end is passed once it has been seen; the end of the file is not passed. -/
theorem lineEnd_ends (opened : Value) (cursor : Cursor) :
    Ends (lift (lineEnd opened)) (lineEnd opened) cursor := by
  cases found : cursor.current.kind with
  | newline =>
    apply Ends.one (by simp [found])
    rw [lineEnd, kind_bind, found]
    rfl
  | _ =>
    apply Ends.still
    rw [lineEnd, kind_bind, found]
    rfl

/-- A line comes to an end, since its statements do. -/
theorem line_ends : EndsWithin limit (line limit) Reading.line := by
  apply (EndsWithin.of_ends fun _ => .still rfl).bind
  intro token
  apply (EndsWithin.of_ends (required_ends (by decide))).bind
  intro number
  apply (statements_ends limit).bind
  intro body
  exact (EndsWithin.of_ends (lineEnd_ends _)).bind fun _ => .pure _

/-- The loop over comments comes to an end. -/
theorem skipRemarks_ends : EndsWithin limit (skipRemarks limit) skipOn := by
  induction limit with
  | zero => exact .zero
  | succ limit inductionHypothesis =>
    intro cursor short
    have passed (isRemark : Grammar.IsRemark cursor.current.kind)
        (inside : cursor.current.kind ≠ .endOfFile) :
        Ends (do lift advance; skipRemarks limit) skipOn cursor :=
      .past inside (skipOn_remark isRemark) (inductionHypothesis.past inside short)
    have stopped (other : ¬ Grammar.IsRemark cursor.current.kind) : Ends (pure ()) skipOn cursor :=
      .congr (pure ()) (Grammar.skipRemarks_stop _ other) (.pure ())
    rw [skipRemarks]
    apply Ends.seen (kind_apply cursor)
    cases found : cursor.current.kind with
    | remark => exact passed (.inl found) (by simp [found])
    | remarkText => exact passed (.inr found) (by simp [found])
    | _ => exact stopped (by simp [found, Grammar.IsRemark])

/-- The loop over lines comes to an end. Each line leaves fewer tokens for those behind it. -/
theorem program_ends : EndsWithin limit (program limit) Reading.program := by
  induction limit with
  | zero => exact .zero
  | succ limit inductionHypothesis =>
    intro cursor short
    rw [program]
    apply Ends.seen (atEnd_apply cursor)
    by_cases finished : cursor.current.kind = .endOfFile
    · rw [if_pos (decide_eq_true finished)]
      exact .congr (pure []) (linesFrom_end _ finished) (.pure [])
    · rw [if_neg (by simp [finished])]
      apply Ends.congr _ (program_eq finished)
      have skips := skipRemarks_ends _ cursor short
      apply skips.bind
      intro _ between skipped
      have left := Nat.lt_of_le_of_lt (skips.rest_length_le skipped) short
      apply (Ends.still (by rw [atEnd_apply])).bind
      intro ended _ tested
      rw [atEnd_apply] at tested
      cases tested
      split
      · exact .pure []
      · apply (line_ends _ between left).bind
        intro first after read
        have fewer := Nat.lt_of_lt_of_le (Grammar.line_shorter read) (Nat.le_of_lt_succ left)
        apply (inductionHypothesis after fewer).bind
        intro rest _ _
        exact .pure (first :: rest)

end Limit

end Limited

end LineBasic.Program
