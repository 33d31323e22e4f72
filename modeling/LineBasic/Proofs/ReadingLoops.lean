import LineBasic.Proofs.ReadingSteps

/-!
# Loops of reading, without regard to their bounds

The loops and the nesting of parentheses are bounded by tokens that are left. In
expressions the bounds never show: a loop bounded by any list at least as long as the
rest of the tokens is the loop bounded by the rest itself. What remains are the
equations by which one would define reading without bounds: a chain continues exactly
when an operator follows, and what stands in parentheses is an expression. The loops
over items and lines are given by what they do at each token.

For expressions the argument needs only that no step lengthens the rest of the tokens,
and that the loops stop at the end of the file, where the current token is no operator.
-/

namespace LineBasic.Program.Reading

/-! ## Steps that agree near the end -/

/-- Two steps do the same wherever at most a number of tokens is left. -/
def Agree {α : Type} (size : Nat) (left right : Reading α) : Prop :=
  ∀ cursor : Cursor, cursor.rest.length ≤ size → left cursor = right cursor

/-- Steps that agree may replace one another in front of continuations that agree, since
the first step leaves no more tokens than there were. -/
theorem Agree.bind {α β : Type} {size : Nat} {left right : Reading α} {next other : α → Reading β}
    (same : Agree size left right) (forwards : Forwards right)
    (continued : ∀ value, Agree size (next value) (other value)) :
    Agree size (left >>= next) (right >>= other) := by
  intro cursor short
  rw [bind_apply, bind_apply, same cursor short]
  cases outcome : right cursor with
  | mk found after =>
    cases found with
    | error error => rfl
    | ok value =>
      exact continued value after (Nat.le_trans (forwards.rest_length_le outcome) short)

/-- With nothing left the current token ends the file. -/
theorem kind_of_rest_nil {cursor : Cursor} (finished : cursor.rest = []) :
    cursor.current.kind = .endOfFile := by
  rw [Cursor.current, finished]
  rfl

/-- Past a token there is one less, if there was one. -/
theorem advance_rest_length (cursor : Cursor) :
    cursor.advance.rest.length = cursor.rest.length - 1 := by
  rw [Cursor.advance, List.length_tail]

/-! ## Chains -/

section Chains

variable {operator? : Token.Kind → Option ArithOp} {operand other : Reading Expr}

/-- Under any bound a chain ends in front of anything but an operator. -/
theorem chainFrom_stop {cursor : Cursor} (stop : operator? cursor.current.kind = none)
    (bound : List Token) (left : Expr) :
    chainFrom operator? operand bound left cursor = (.ok left, cursor) := by
  cases bound with
  | nil => rfl
  | cons token bound =>
    rw [chainFrom, kind_bind, stop]
    rfl

/-- At an operator the bound loses a token and the chain an operand. -/
theorem chainFrom_operator {cursor : Cursor} {op : ArithOp}
    (follows : operator? cursor.current.kind = some op) (token : Token) (bound : List Token)
    (left : Expr) :
    chainFrom operator? operand (token :: bound) left cursor =
      (operand >>= fun right => chainFrom operator? operand bound (.binary op left right))
        cursor.advance := by
  rw [chainFrom, kind_bind, follows]
  rfl

/-- Joining operands only moves on if reading an operand does. -/
theorem Forwards.chainFrom (forwards : Forwards operand) (bound : List Token) (left : Expr) :
    Forwards (chainFrom operator? operand bound left) := by
  induction bound generalizing left with
  | nil => exact Forwards.pure left
  | cons token bound inductionHypothesis =>
    rw [Reading.chainFrom]
    refine Forwards.kind.bind fun kind => ?_
    cases operator? kind with
    | none => exact Forwards.pure left
    | some op => exact Forwards.advance.bind fun _ => forwards.bind fun _ => inductionHypothesis _

/-- Reading a chain only moves on if reading an operand does. -/
theorem Forwards.chain (forwards : Forwards operand) : Forwards (chain operator? operand) :=
  forwards.bind fun _ => Forwards.remaining.bind fun _ => forwards.chainFrom _ _

/-- Operands that agree are joined alike. -/
theorem chainFrom_congr {size : Nat} (same : Agree size operand other) (forwards : Forwards other)
    (bound : List Token) (left : Expr) :
    Agree size (chainFrom operator? operand bound left)
      (chainFrom operator? other bound left) := by
  induction bound generalizing left with
  | nil => exact fun _ _ => rfl
  | cons token bound inductionHypothesis =>
    intro cursor short
    cases follows : operator? cursor.current.kind with
    | none => rw [chainFrom_stop follows, chainFrom_stop follows]
    | some op =>
      rw [chainFrom_operator follows, chainFrom_operator follows]
      have shorter : cursor.advance.rest.length ≤ size := by
        rw [advance_rest_length]
        omega
      exact same.bind forwards (fun _ => inductionHypothesis _) cursor.advance shorter

/-- Operands that agree make chains that agree. -/
theorem chain_congr {size : Nat} (same : Agree size operand other) (forwards : Forwards other) :
    Agree size (chain operator? operand) (chain operator? other) :=
  same.bind forwards fun _ => Agree.bind (fun _ _ => rfl) Forwards.remaining fun _ =>
    chainFrom_congr same forwards _ _

/-- A chain is continued alike under any two bounds that are no shorter than the rest. Each
round passes its operator, so the rest shrinks along with the bounds. -/
theorem chainFrom_bound (stops : operator? .endOfFile = none) (forwards : Forwards operand)
    (bound further : List Token) (left : Expr) (cursor : Cursor)
    (enough : cursor.rest.length ≤ bound.length) (also : cursor.rest.length ≤ further.length) :
    chainFrom operator? operand bound left cursor =
      chainFrom operator? operand further left cursor := by
  induction bound generalizing further left cursor with
  | nil =>
    have finished : cursor.rest = [] := List.eq_nil_of_length_eq_zero (Nat.le_zero.mp enough)
    have stop : operator? cursor.current.kind = none := by rw [kind_of_rest_nil finished, stops]
    rw [chainFrom_stop stop, chainFrom_stop stop]
  | cons token bound inductionHypothesis =>
    cases follows : operator? cursor.current.kind with
    | none => rw [chainFrom_stop follows, chainFrom_stop follows]
    | some op =>
      cases further with
      | nil =>
        have finished : cursor.rest = [] := List.eq_nil_of_length_eq_zero (Nat.le_zero.mp also)
        rw [kind_of_rest_nil finished, stops] at follows
        cases follows
      | cons first further =>
        rw [chainFrom_operator follows, chainFrom_operator follows]
        refine bind_congr fun right after outcome => ?_
        have shrunk := forwards.rest_length_le outcome
        rw [advance_rest_length] at shrunk
        simp only [List.length_cons] at enough also
        exact inductionHypothesis further _ after (by omega) (by omega)

/-- Joins further operands to the one on the left, bounded by the tokens left. -/
def chainOn (operator? : Token.Kind → Option ArithOp) (operand : Reading Expr) (left : Expr) :
    Reading Expr := do
  chainFrom operator? operand (← remaining) left

/-- A chain is its first operand, continued. -/
theorem chain_eq : chain operator? operand = operand >>= chainOn operator? operand := rfl

/-- A chain ends in front of anything but an operator. -/
theorem chainOn_stop {cursor : Cursor} (left : Expr)
    (stop : operator? cursor.current.kind = none) :
    chainOn operator? operand left cursor = (.ok left, cursor) :=
  chainFrom_stop stop cursor.rest left

/-- At an operator a chain goes on with the next operand, joined to what came before. -/
theorem chainOn_operator (stops : operator? .endOfFile = none) (forwards : Forwards operand)
    {cursor : Cursor} {op : ArithOp} (left : Expr)
    (follows : operator? cursor.current.kind = some op) :
    chainOn operator? operand left cursor =
      (operand >>= fun right => chainOn operator? operand (.binary op left right))
        cursor.advance := by
  have inside : cursor.current.kind ≠ .endOfFile := by
    intro finished
    rw [finished, stops] at follows
    cases follows
  rw [chainOn, remaining_bind, Cursor.rest_eq inside, chainFrom_operator follows]
  refine bind_congr fun right after outcome => ?_
  exact chainFrom_bound stops forwards _ _ _ after (forwards.rest_length_le outcome) (Nat.le_refl _)

end Chains

/-! ## Factors, terms and expressions -/

/-- Reading a factor only moves on if reading what stands in parentheses does. -/
theorem Forwards.factorOf {inside : Reading Expr} (forwards : Forwards inside) :
    Forwards (factorOf inside) := by
  refine Forwards.kind.bind fun kind => ?_
  split
  · exact Forwards.take.bind fun _ => Forwards.pure _
  · exact Forwards.take.bind fun _ => Forwards.pure _
  · refine Forwards.advance.bind fun _ => forwards.bind fun inner => ?_
    refine Forwards.kind.bind fun kind => ?_
    split
    · exact Forwards.advance.bind fun _ => Forwards.pure _
    · exact Forwards.expected _
  · exact Forwards.expected _

/-- A factor under any bound only moves on. -/
theorem Forwards.factorWithin (bound : List Token) : Forwards (factorWithin bound) := by
  induction bound with
  | nil => exact (Forwards.expected _).factorOf
  | cons token bound inductionHypothesis => exact inductionHypothesis.chain.chain.factorOf

/-- A factor does not go back. -/
theorem Forwards.factor : Forwards factor :=
  Forwards.remaining.bind fun _ => Forwards.factorWithin _

/-- A term does not go back. -/
theorem Forwards.term : Forwards term := Forwards.factor.chain

/-- What stands in parentheses is read after them, where one token less is left. -/
theorem factorOf_congr {size : Nat} {inside other : Reading Expr} (same : Agree size inside other)
    {cursor : Cursor} (short : cursor.rest.length ≤ size + 1) :
    factorOf inside cursor = factorOf other cursor := by
  rw [factorOf, factorOf, kind_bind, kind_bind]
  cases cursor.current.kind with
  | leftParen =>
    have shorter : cursor.advance.rest.length ≤ size := by
      rw [advance_rest_length]
      omega
    dsimp only
    rw [advance_bind, advance_bind, bind_apply, bind_apply, same cursor.advance shorter]
  | _ => rfl

/-- At the end of the tokens no factor begins, whatever parentheses would hold. -/
theorem factorOf_finished (inside : Reading Expr) {cursor : Cursor} (finished : cursor.rest = []) :
    factorOf inside cursor = (.error ⟨.factor, cursor.current⟩, cursor) := by
  rw [factorOf, kind_bind, kind_of_rest_nil finished]
  rfl

/-- A factor is read alike under any two bounds that are no shorter than the rest. -/
theorem factorWithin_bound (bound further : List Token) (cursor : Cursor)
    (enough : cursor.rest.length ≤ bound.length) (also : cursor.rest.length ≤ further.length) :
    factorWithin bound cursor = factorWithin further cursor := by
  induction bound generalizing further cursor with
  | nil =>
    have finished : cursor.rest = [] := List.eq_nil_of_length_eq_zero (Nat.le_zero.mp enough)
    cases further with
    | nil => rfl
    | cons first further =>
      rw [factorWithin, factorWithin, factorOf_finished _ finished, factorOf_finished _ finished]
  | cons token bound inductionHypothesis =>
    cases further with
    | nil =>
      have finished : cursor.rest = [] := List.eq_nil_of_length_eq_zero (Nat.le_zero.mp also)
      rw [factorWithin, factorWithin, factorOf_finished _ finished, factorOf_finished _ finished]
    | cons first further =>
      have same : Agree (min bound.length further.length) (factorWithin bound)
          (factorWithin further) := by
        intro nested short
        exact inductionHypothesis further nested (by omega) (by omega)
      have forwards := Forwards.factorWithin further
      simp only [List.length_cons] at enough also
      exact factorOf_congr (chain_congr (chain_congr same forwards) forwards.chain) (by omega)

/-- A factor is read as its definition without bounds would have it. -/
theorem factor_eq (cursor : Cursor) : factor cursor = factorOf expr cursor := by
  rw [factor, remaining_bind]
  cases remaining : cursor.rest with
  | nil => rw [factorWithin, factorOf_finished _ remaining, factorOf_finished _ remaining]
  | cons token rest =>
    have same : Agree rest.length (factorWithin rest) factor := by
      intro nested short
      exact factorWithin_bound rest nested.rest nested short (Nat.le_refl _)
    have forwards := Forwards.factor
    have short : cursor.rest.length ≤ rest.length + 1 :=
      Nat.le_of_eq (congrArg List.length remaining)
    exact factorOf_congr (chain_congr (chain_congr same forwards) forwards.chain) short

/-! ## Lists and lines -/

section Items

variable {α : Type} {separator : Token.Kind} {item : Reading α}

/-- At a separator a further item is read, and then the rest of them. -/
theorem itemsFrom_cons {cursor : Cursor} (token : Token) (bound : List Token)
    (separates : cursor.current.kind = separator) :
    itemsFrom separator item (token :: bound) cursor =
      (do
        let first ← item
        let rest ← itemsFrom separator item bound
        pure (first :: rest)) cursor.advance := by
  rw [itemsFrom, kind_bind, if_pos separates, advance_bind]

/-- Under any bound items end in front of anything but a separator. -/
theorem itemsFrom_stop {cursor : Cursor} (bound : List Token)
    (stop : cursor.current.kind ≠ separator) :
    itemsFrom separator item bound cursor = (.ok [], cursor) := by
  cases bound with
  | nil => rfl
  | cons token bound =>
    rw [itemsFrom, kind_bind, if_neg stop]
    rfl

end Items

/-- The end of a line is a line end, which is passed, or the end of the file, which is
not. -/
theorem lineEnd_eq_ok_iff {opened : Value} {before after : Cursor} :
    lineEnd opened before = (.ok (), after) ↔
      before.current.kind = .newline ∧ after = before.advance ∨
        before.current.kind = .endOfFile ∧ after = before := by
  rw [lineEnd, kind_bind]
  cases before.current.kind with
  | newline => simp [eq_comm]
  | endOfFile => simp [eq_comm]
  | _ => simp

/-- The test for the end of the file leaves the cursor alone. -/
theorem atEnd_apply (cursor : Cursor) :
    atEnd cursor = (.ok (decide (cursor.current.kind = .endOfFile)), cursor) := by
  rw [atEnd, kind_bind]
  cases cursor.current.kind <;> rfl

/-- At the end of the file there are no further lines. -/
theorem linesFrom_end {cursor : Cursor} (bound : List Token)
    (finished : cursor.current.kind = .endOfFile) :
    linesFrom bound cursor = (.ok [], cursor) := by
  cases bound with
  | nil => rfl
  | cons token bound => rw [linesFrom, bind_apply, atEnd_apply]; simp [finished]

/-- Comments, and then the end of the file or a line and further lines. -/
theorem linesFrom_cons {before between : Cursor} (token : Token) (bound : List Token)
    (inside : before.current.kind ≠ .endOfFile)
    (skipped : skipRemarks before.rest before = (.ok (), between)) :
    linesFrom (token :: bound) before =
      if between.current.kind = .endOfFile then (.ok [], between)
      else (do
        let first ← line
        let rest ← linesFrom bound
        pure (first :: rest)) between := by
  rw [linesFrom, bind_ok (atEnd_apply before), if_neg (by simp [inside]), remaining_bind,
    bind_ok skipped, bind_ok (atEnd_apply between)]
  by_cases finished : between.current.kind = .endOfFile
  · rw [if_pos (by simp [finished]), if_pos finished]
    rfl
  · rw [if_neg (by simp [finished]), if_neg finished]

end LineBasic.Program.Reading
