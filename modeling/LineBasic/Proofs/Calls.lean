import LineBasic.Proofs.Lookahead

/-!
# Calls on a cursor

Every part of a program can be read on its own, at any place of a token list. A call reads one of
them or passes one token. A token list is a row of places without an end: past its last token every
place holds the token that stands past the end of every list.

What a call gives, and where it stops, is decided by the tokens from the place where it begins up
to the place where it stops.
-/

namespace LineBasic.Program

/-- The token at a place. -/
def tokenAt (tokens : List Token) (place : Nat) : Token := tokens.getD place Token.pastEnd

/-- The cursor at a place. -/
def Cursor.at (tokens : List Token) (place : Nat) : Cursor := ⟨tokens.drop place, place⟩

/-- A cursor at a place shows the token there. -/
@[simp]
theorem Cursor.at_current (tokens : List Token) (place : Nat) :
    (Cursor.at tokens place).current = tokenAt tokens place := by
  rw [Cursor.at, current, tokenAt, List.headD_eq_head?_getD, List.head?_drop,
    List.getD_eq_getElem?_getD]

/-- Tokens that are passed add to the place. -/
@[simp]
theorem Cursor.at_skip (tokens : List Token) (place count : Nat) :
    (Cursor.at tokens place).skip count = .at tokens (place + count) := by
  rw [Cursor.at, skip, List.drop_drop, Cursor.at]

/-- What can be asked of a cursor. -/
inductive Call where
  | advance
  | program
  | line
  | statements
  | statement
  | assignment
  | print
  | printItem
  | input
  | branch
  | condition
  | goto
  | gosub
  | expr
  | term
  | factor
deriving DecidableEq, Repr

namespace Call

/-- What a call gives if it succeeds. -/
def Result : Call → Type
  | .advance => Unit
  | .program => Program
  | .line => Line
  | .statements => List Stmt
  | .statement | .assignment | .print | .input | .branch | .goto | .gosub => Stmt
  | .printItem => PrintItem
  | .condition => Condition
  | .expr | .term | .factor => Expr

/-- The step that a call takes. -/
def reading : (call : Call) → Reading call.Result
  | .advance => Reading.advance
  | .program => Reading.program
  | .line => Reading.line
  | .statements => Reading.statements
  | .statement => Reading.statement
  | .assignment => Reading.assignment
  | .print => Reading.print
  | .printItem => Reading.printItem
  | .input => Reading.input
  | .branch => Reading.branch
  | .condition => Reading.condition
  | .goto => Reading.goto
  | .gosub => Reading.gosub
  | .expr => Reading.expr
  | .term => Reading.term
  | .factor => Reading.factor

open Reading

/-- No call looks further than the token where it stops. -/
theorem reading_local (call : Call) {size : Nat} : Local size call.reading := by
  cases call with
  | advance => exact .advance
  | program => exact program_local
  | line => exact line_local
  | statements => exact items_local (by decide) fun _ => statement_local
  | statement => exact statement_local
  | assignment => exact assignment_local
  | print => exact print_local
  | printItem => exact printItem_local
  | input => exact operand_local
  | branch => exact branch_local
  | condition => exact condition_local
  | goto => exact operand_local
  | gosub => exact operand_local
  | expr => exact expr_local
  | term => exact term_local
  | factor => exact factor_local size

/-- No call moves a cursor back. -/
theorem forwards (call : Call) : Forwards call.reading := Local.forwards fun _ => call.reading_local

/-- Cursors at one place of two lists have the same tokens ahead, if the lists hold the same
tokens at the places ahead. -/
theorem sameAhead_at {tokens others : List Token} {place count : Nat}
    (same : ∀ ahead, place ≤ ahead → ahead ≤ place + count →
      tokenAt tokens ahead = tokenAt others ahead) :
    SameAhead count (.at tokens place) (.at others place) := by
  intro passed within
  rw [Cursor.at_skip, Cursor.at_skip, Cursor.at_current, Cursor.at_current]
  exact same _ (Nat.le_add_right _ _) (Nat.add_le_add_left within place)

/-- The tokens from where a call begins up to where it stops decide everything. In every other list
that has the same tokens there, the call gives the same value or the same error, and stops at the
same place.

Every step of reading is local: it looks no further than the token where it stops. Sequences and
loops of local steps are local, and from this all calls are. -/
theorem reading_decided (call : Call) (tokens others : List Token) (place : Nat)
    (same : ∀ ahead, place ≤ ahead → ahead ≤ (call.reading (.at tokens place)).2.position →
      tokenAt tokens ahead = tokenAt others ahead) :
    call.reading (.at others place) =
      ((call.reading (.at tokens place)).1,
        .at others (call.reading (.at tokens place)).2.position) := by
  obtain ⟨count, stopped, alike⟩ := call.reading_local _ (Nat.le_refl _)
  rw [stopped, Cursor.at_skip] at same ⊢
  rw [alike _ (sameAhead_at same), Cursor.at_skip]
  rfl

/-- A sum whose second operand is missing. One list ends behind the sign, and the other goes on
behind a token like the one past the end. -/
theorem reading_decided_pastEnd :
    let one : Token := ⟨.number, .number 1, .number 1, .number 0⟩
    let plus : Token := ⟨.arith .plus, .text "+", .number 1, .number 1⟩
    let others := [plus, one, plus, .pastEnd, one]
    Call.expr.reading (.at [one, one, plus] 1) =
        (.error ⟨.factor, .pastEnd⟩, .at [one, one, plus] 3) ∧
      Call.expr.reading (.at others 1) = (.error ⟨.factor, .pastEnd⟩, .at others 3) := by
  intro one plus others
  have stopped : Call.expr.reading (.at [one, one, plus] 1) =
      (.error ⟨.factor, .pastEnd⟩, .at [one, one, plus] 3) := rfl
  have decided := reading_decided .expr [one, one, plus] others 1
  rw [stopped] at decided
  refine ⟨stopped, decided ?_⟩
  intro ahead begun within
  have within : ahead ≤ 3 := within
  obtain rfl | rfl | rfl : ahead = 1 ∨ ahead = 2 ∨ ahead = 3 := by omega
  · rfl
  · rfl
  · rfl

end Call

end LineBasic.Program
