import LineBasic.Proofs.Calls
import LineBasic.Proofs.Cutting
import LineBasic.Proofs.Limits

/-!
# How calls move a cursor

A cursor is set in front of the tokens of any text that can be cut, since such a text has at least
one. Calls follow one another on one cursor, and a call that fails leaves the cursor where it failed.
After every call the cursor is at a place of the token list or past its end. No call moves it back,
and one that reads a part moves it on if it succeeds: every part but a whole program has a token.
A whole program ends where the file does, and what is read of it never reaches further.

That a call comes to an end is said about reading with a limit: if the limit is greater than the
number of tokens, no call gets to it.
-/

namespace LineBasic.Program

variable {α β : Type}

/-! ## Progress -/

/-- A step that succeeds has passed a token. -/
def Progresses (reading : Reading α) : Prop :=
  ∀ ⦃before after : Cursor⦄ ⦃value : α⦄, reading before = (.ok value, after) →
    before.position < after.position

namespace Progresses

open Reading Grammar

/-- A step that progresses may be followed by one that moves on. -/
theorem bind {first : Reading α} {next : α → Reading β} (start : Progresses first)
    (finish : ∀ value, Forwards (next value)) : Progresses (first >>= next) := by
  intro before after result succeeded
  obtain ⟨value, between, found, continued⟩ := bind_eq_ok_iff.mp succeeded
  obtain ⟨count, moved⟩ := finish value between
  rw [continued] at moved
  obtain rfl : after = between.skip count := moved
  exact Nat.lt_of_lt_of_le (start found) (Nat.le_add_right _ _)

/-- A step progresses if no value is written by no tokens. -/
theorem of_sound {reading : Reading α} {Writes : List Token → α → Prop}
    (sound : Sound reading Writes)
    (filled : ∀ {tokens value}, Writes tokens value → tokens ≠ []) : Progresses reading := by
  intro before after value succeeded
  obtain ⟨tokens, passed, written⟩ := sound succeeded
  have least := List.length_pos_iff.mpr (filled written)
  rw [passed.position]
  omega

/-- To pass a token is progress, even past the end. -/
theorem advance : Progresses Reading.advance := by
  rintro before _ _ ⟨⟩
  exact Nat.lt_succ_self _

/-- No expression is written by no tokens. -/
theorem expression_filled {level : Level} {tokens : List Token} {value : Expr}
    (written : Expression level tokens value) : tokens ≠ [] := by
  obtain ⟨first, others, rfl, -⟩ := written.begins
  exact List.cons_ne_nil _ _

/-- A factor has a token. -/
theorem factor : Progresses Reading.factor := of_sound factor_sound expression_filled

/-- A term has a token. -/
theorem term : Progresses Reading.term := of_sound (termOf_sound factor_sound) expression_filled

/-- An expression has a token. -/
theorem expr : Progresses Reading.expr := of_sound expr_sound expression_filled

/-- An item to print has a token. -/
theorem printItem : Progresses Reading.printItem := by
  apply of_sound printItem_sound
  rintro tokens _ (_ | written)
  · exact List.cons_ne_nil _ _
  · exact expression_filled written

/-- A condition has a token, since its left side has. -/
theorem condition : Progresses Reading.condition :=
  expr.bind fun _ => Local.forwards fun _ => comparison_local.bind fun _ =>
    expr_local.bind fun _ => .pure _

/-- No statement is written by no tokens. -/
theorem statement_filled {tokens : List Token} {stmt : Stmt} (written : Statement tokens stmt) :
    tokens ≠ [] := by
  cases written <;> exact List.cons_ne_nil _ _

/-- A statement has a token. -/
theorem statement : Progresses Reading.statement := of_sound statement_sound statement_filled

/-- The statements of a line have a token, since the first has. -/
theorem statements : Progresses Reading.statements := by
  apply of_sound (items_sound statement_sound (by decide))
  rintro tokens _ (only | _)
  · exact statement_filled only
  · simp

/-- A line has a token, namely its number. -/
theorem line : Progresses Reading.line := by
  intro before after value succeeded
  obtain ⟨tokens, between, passed, written, ended⟩ := line_sound succeeded
  cases written with
  | intro isNumber body =>
    have reached := passed.position
    rw [List.length_cons] at reached
    rcases ended with ⟨-, rfl⟩ | ⟨-, rfl⟩
    · rw [Cursor.advance_position]
      omega
    · omega

/-- A step whose first token is passed unseen progresses, whatever is read behind it. -/
theorem unseen {behind : Reading α} (looks : ∀ size, Local size behind) :
    Progresses (Reading.advance >>= fun _ => behind) :=
  advance.bind fun _ => Local.forwards looks

/-- An assignment passes its first word. -/
theorem assignment : Progresses Reading.assignment :=
  unseen fun _ => Local.current.bind fun _ => (required_local _ _).bind fun _ =>
    (required_local _ _).bind fun _ => expr_local.bind fun _ => .pure _

/-- A print statement passes its first word. -/
theorem print : Progresses Reading.print :=
  unseen fun _ => (items_local (by decide) fun _ => printItem_local).bind fun _ => .pure _

/-- A branch passes its first word. -/
theorem branch : Progresses Reading.branch :=
  unseen fun _ => condition_local.bind fun _ => (required_local _ _).bind fun _ =>
    (required_local _ _).bind fun _ => .pure _

/-- A word followed by a required token. -/
theorem operand {wanted : Token.Kind} {expectation : Expectation} {build : Value → Stmt} :
    Progresses (do Reading.advance; let value ← required wanted expectation; pure (build value)) :=
  unseen fun _ => (required_local wanted expectation).bind fun _ => .pure _

end Progresses

/-! ## Calls -/

namespace Call

/-- Every call but that for a whole program moves on if it succeeds. -/
theorem progresses {call : Call} (part : call ≠ .program) : Progresses call.reading := by
  cases call with
  | advance => exact .advance
  | program => exact absurd rfl part
  | line => exact .line
  | statements => exact .statements
  | statement => exact .statement
  | assignment => exact .assignment
  | print => exact .print
  | printItem => exact .printItem
  | input => exact .operand
  | branch => exact .branch
  | condition => exact .condition
  | goto => exact .operand
  | gosub => exact .operand
  | expr => exact .expr
  | term => exact .term
  | factor => exact .factor

/-- The step that a call takes with a limit. -/
def limited (limit : Nat) : (call : Call) → Limited call.Result
  | .advance => Limited.lift Reading.advance
  | .program => Limited.program limit
  | .line => Limited.line limit
  | .statements => Limited.statements limit
  | .statement => Limited.statement limit
  | .assignment => Limited.assignment limit
  | .print => Limited.print limit
  | .printItem => Limited.printItem limit
  | .input => Limited.lift Reading.input
  | .branch => Limited.branch limit
  | .condition => Limited.condition limit
  | .goto => Limited.lift Reading.goto
  | .gosub => Limited.lift Reading.gosub
  | .expr => Limited.expr limit
  | .term => Limited.term limit
  | .factor => Limited.factor limit

/-- No call gets to a limit that is greater than the number of tokens left. -/
theorem limited_eq (call : Call) {cursor : Cursor} {limit : Nat}
    (enough : cursor.rest.length < limit) :
    call.limited limit cursor = some (call.reading cursor) := by
  cases call with
  | advance => rfl
  | program => exact (Limited.program_ends limit cursor enough).outcome
  | line => exact (Limited.line_ends limit cursor enough).outcome
  | statements => exact (Limited.statements_ends limit cursor enough).outcome
  | statement => exact (Limited.statement_ends limit cursor enough).outcome
  | assignment => exact (Limited.assignment_ends limit).outcome cursor enough
  | print => exact (Limited.print_ends limit).outcome cursor enough
  | printItem => exact (Limited.printItem_ends limit cursor enough).outcome
  | input => rfl
  | branch => exact (Limited.branch_ends limit).outcome cursor enough
  | condition => exact (Limited.condition_ends limit cursor enough).outcome
  | goto => rfl
  | gosub => rfl
  | expr => exact (Limited.expr_ends limit cursor enough).outcome
  | term => exact (Limited.term_ends limit cursor enough).outcome
  | factor => exact (Limited.factor_ends limit cursor enough).outcome

/-- A call moves a cursor from a place to one that is not before it. -/
theorem moves_at (call : Call) (tokens : List Token) (place : Nat) :
    ∃ reached, place ≤ reached ∧ (call.reading (.at tokens place)).2 = .at tokens reached := by
  obtain ⟨count, moved⟩ := call.forwards (.at tokens place)
  exact ⟨place + count, Nat.le_add_right _ _, by rw [moved, Cursor.at_skip]⟩

end Call

/-- A cursor can be set on the tokens of every text that is cut: behind the others there is the
one that ends the text. -/
theorem Cursor.ofTokens_scan {source : String} {tokens : List Token}
    (scanned : Token.scan source = .ok tokens) : Cursor.ofTokens tokens = .ok (.start tokens) := by
  obtain ⟨front, line, column, rfl, -⟩ := Token.makes_of_scan scanned
  cases front with
  | nil => rfl
  | cons first rest => rfl

/-- The cursor after calls, one after another, from the front of the tokens on. -/
def Cursor.after (tokens : List Token) (calls : List Call) : Cursor :=
  calls.foldl (fun cursor call => (call.reading cursor).2) (.start tokens)

/-- After any calls the cursor is at a place. -/
theorem Cursor.after_at (tokens : List Token) (calls : List Call) :
    ∃ place, Cursor.after tokens calls = .at tokens place := by
  have start : Cursor.start tokens = .at tokens 0 := rfl
  rw [Cursor.after, start]
  generalize 0 = place
  induction calls generalizing place with
  | nil => exact ⟨place, rfl⟩
  | cons call calls inductionHypothesis =>
    obtain ⟨reached, -, moved⟩ := call.moves_at tokens place
    rw [List.foldl_cons, moved]
    exact inductionHypothesis reached

/-- Past the last token every place holds the end of the file. -/
theorem tokenAt_beyond {tokens : List Token} {place : Nat} (beyond : tokens.length ≤ place) :
    (tokenAt tokens place).kind = .endOfFile := by
  rw [tokenAt, List.getD_eq_getElem?_getD, List.getElem?_eq_none beyond]
  rfl

namespace Cursor.Passes

variable {tokens passed : List Token} {place : Nat} {after : Cursor}

/-- The tokens between two places are those passed from the one to the other. -/
theorem tokenAt_mem (passes : (Cursor.at tokens place).Passes passed after) {between : Nat}
    (behind : place ≤ between) (ahead : between < after.position) :
    tokenAt tokens between ∈ passed := by
  have reached : after.position = place + passed.length := passes.position
  have rest : tokens.drop place = passed ++ after.rest := passes.rest
  obtain ⟨count, rfl⟩ := Nat.exists_eq_add_of_le behind
  have within : count < passed.length := by omega
  have found : tokens[place + count]? = some passed[count] := by
    rw [← List.getElem?_drop, rest, List.getElem?_append_left within,
      List.getElem?_eq_getElem within]
  rw [tokenAt, List.getD_eq_getElem?_getD, found, Option.getD_some]
  exact List.getElem_mem within

/-- Where no end of the file is passed, none is left behind. -/
theorem position_le_end (passes : (Cursor.at tokens place).Passes passed after)
    (endless : Grammar.Endless passed) {ending : Nat} (behind : place ≤ ending)
    (isEnd : (tokenAt tokens ending).kind = .endOfFile) : after.position ≤ ending := by
  apply Nat.le_of_not_lt
  intro further
  exact endless _ (passes.tokenAt_mem behind further) isEnd

end Cursor.Passes

/-- What any call does to a cursor after any other calls. It comes to an end, without getting to a
limit above the number of tokens. It does not move the cursor back, and leaves it at a place of the
list or past its end. If it reads a part of a program and succeeds, it has moved the cursor on.

If it reads a whole program, the cursor does not get past any end of the file from where it stood
on, of which one is the end of the list, and it gets to one if the call succeeds. Past the end of
the list the cursor does not move.

All calls move on, whatever they read; so the cursor stays at places of the list, by induction over
the calls. Calls that read a part progress because what they read is written with at least one
token. The end of a call and where a whole program stops are found by following the loops of
reading, each round of which leaves fewer tokens. -/
theorem call_moves (tokens : List Token) (calls : List Call) (call : Call) :
    let before := Cursor.after tokens calls
    let outcome := (call.reading before).1
    let after := (call.reading before).2
    (∀ limit, tokens.length < limit → call.limited limit before = some (outcome, after)) ∧
      before.position ≤ after.position ∧
      after.current = tokenAt tokens after.position ∧
      (call ≠ .program → (∃ value, outcome = .ok value) → before.position < after.position) ∧
      (call = .program →
        (∀ ending, before.position ≤ ending → (tokenAt tokens ending).kind = .endOfFile →
          after.position ≤ ending) ∧
        ((∃ value, outcome = .ok value) → (tokenAt tokens after.position).kind = .endOfFile) ∧
        (tokens.length ≤ before.position → after = before)) := by
  obtain ⟨place, isPlace⟩ := Cursor.after_at tokens calls
  rw [isPlace]
  intro before outcome after
  obtain ⟨reached, onwards, moved⟩ := call.moves_at tokens place
  have isReached : after = .at tokens reached := moved
  refine ⟨?_, ?_, ?_, ?_, ?_⟩
  · intro limit enough
    apply call.limited_eq
    exact Nat.lt_of_le_of_lt (List.drop_suffix place tokens).length_le enough
  · rw [isReached]
    exact onwards
  · rw [isReached]
    exact Cursor.at_current tokens reached
  · rintro part ⟨value, succeeded⟩
    exact Call.progresses part (Prod.ext succeeded rfl)
  · rintro rfl
    have ends := Limited.program_ends _ before (Nat.lt_succ_self _)
    obtain ⟨passed, passes, endless⟩ := ends.within
    have noFurther {ending : Nat} (behind : place ≤ ending)
        (isEnd : (tokenAt tokens ending).kind = .endOfFile) : after.position ≤ ending :=
      passes.position_le_end endless behind isEnd
    refine ⟨fun _ => noFurther, ?_, ?_⟩
    · rintro ⟨value, succeeded⟩
      obtain ⟨_, -, -, isEnd⟩ := Grammar.program_sound (Prod.ext succeeded rfl : _ = (_, after))
      rw [isReached] at isEnd ⊢
      rwa [Cursor.at_current] at isEnd
    · intro beyond
      have back := noFurther (Nat.le_refl place) (tokenAt_beyond beyond)
      rw [isReached] at back
      have still : reached = place := Nat.le_antisymm back onwards
      rw [isReached, still]

end LineBasic.Program
