import LineBasic.Proofs.Trace
import Mathlib.Data.List.Forall2

/-!
# Variables that have not been set

A variable that has not been set counts as zero, and nothing but this value is ever asked of
it: every expression, condition and print item looks variables up, and no statement asks which
of them have been set. So two machines whose variables have the same values cannot be told
apart by a program, whichever variables each of them has set and in whatever order. A
statement that sets a variable sets it to the same value in both.

What the two have shown before is left out of the comparison. They show the same from then on.
-/

namespace LineBasic

open Machine

/-! ## Values -/

/-- Every variable has the same value in both stores, whether it has been set or not. -/
def Machine.Store.Agrees (store other : Store) : Prop := ∀ name, store.get name = other.get name

/-- Setting a variable to the same value keeps the agreement. -/
theorem Machine.Store.Agrees.set {store other : Store} (agrees : store.Agrees other)
    (name value : Value) : (store.set name value).Agrees (other.set name value) := by
  intro asked
  rw [Store.get_set, Store.get_set, agrees asked]

section Values

variable {store other : Store} (agrees : store.Agrees other)
include agrees

/-- An expression has the same value in stores that agree. -/
theorem Expr.eval_agrees (expr : Expr) : expr.eval store = expr.eval other := by
  induction expr with
  | constant value => rfl
  | var name => rw [eval, eval, agrees name]
  | binary op left right inductionLeft inductionRight =>
    rw [eval, eval, inductionLeft, inductionRight]
  | voided operator left right inductionLeft inductionRight =>
    rw [eval, eval, inductionLeft, inductionRight]
  | faulty fault => rfl

/-- A condition has the same truth. -/
theorem Condition.eval_agrees (condition : Condition) :
    condition.eval store = condition.eval other := by
  rw [eval, eval, Expr.eval_agrees agrees, Expr.eval_agrees agrees]

/-- An item prints the same content. -/
theorem PrintItem.content_agrees (item : PrintItem) : item.content store = item.content other := by
  cases item with
  | text content => rfl
  | value expr => rw [content, content, Expr.eval_agrees agrees]

/-- A print statement prints the same line. -/
theorem Machine.printedLine_agrees (items : List PrintItem) :
    printedLine store items = printedLine other items := by
  have contents : PrintItem.content store = PrintItem.content other :=
    funext fun item => PrintItem.content_agrees agrees item
  rw [printedLine, printedLine, contents]

end Values

namespace Machine

/-! ## Statements and lines -/

/-- Two states that differ at most in which variables have been set and in what had been shown
by an earlier time, when the logs were as given. -/
structure State.Alike (earlier otherEarlier : List Event) (state other : State) : Prop where
  store : state.store.Agrees other.store
  returns : state.returns = other.returns
  feed : state.feed = other.feed
  shown : ∃ events, state.log = events ++ earlier ∧ other.log = events ++ otherEarlier

/-- Two outcomes with the same result and with states that are alike. -/
inductive AlikeOutcomes {α : Type} (earlier otherEarlier : List Event) :
    (outcome other : Except Fault α × State) → Prop where
  | same {result : Except Fault α} {after otherAfter : State}
      (alike : after.Alike earlier otherEarlier otherAfter) :
      AlikeOutcomes earlier otherEarlier (result, after) (result, otherAfter)

variable {earlier otherEarlier : List Event} {state other : State}

namespace State.Alike

/-- What is shown to both leaves them alike. -/
theorem emit (alike : state.Alike earlier otherEarlier other) (event : Event) :
    (state.emit event).Alike earlier otherEarlier (other.emit event) := by
  obtain ⟨events, log, otherLog⟩ := alike.shown
  refine ⟨alike.store, alike.returns, alike.feed, event :: events, ?_, ?_⟩
  · exact congrArg (event :: ·) log
  · exact congrArg (event :: ·) otherLog

/-- A variable that is set in both leaves them alike. -/
theorem set (alike : state.Alike earlier otherEarlier other) (name value : Value) :
    { state with store := state.store.set name value }.Alike earlier otherEarlier
      { other with store := other.store.set name value } :=
  ⟨alike.store.set name value, alike.returns, alike.feed, alike.shown⟩

/-- A statement gives the same. -/
theorem exec (alike : state.Alike earlier otherEarlier other) (program : Program) (index : Int)
    (stmt : Stmt) :
    AlikeOutcomes earlier otherEarlier (stmt.exec program index state)
      (stmt.exec program index other) := by
  cases stmt with
  | assign name expr =>
    simp only [Stmt.exec, Expr.eval_agrees alike.store expr]
    cases expr.eval other.store with
    | ok value => exact .same (alike.set name value)
    | error fault => exact .same alike
  | print items =>
    simp only [Stmt.exec, printedLine_agrees alike.store items]
    cases printedLine other.store items with
    | ok text => exact .same (alike.emit (.line text))
    | error fault => exact .same alike
  | input name =>
    simp only [Stmt.exec]
    cases name.shown? with
    | none => exact .same alike
    | some shown =>
      have asked := alike.emit (.prompt shown)
      dsimp only
      rw [asked.feed]
      rcases (other.emit (.prompt shown)).feed.next with ⟨fault | n, feed⟩
      · exact .same ⟨asked.store, asked.returns, rfl, asked.shown⟩
      · exact .same ⟨asked.store.set name (.number n), asked.returns, rfl, asked.shown⟩
  | branch condition target =>
    simp only [Stmt.exec, Condition.eval_agrees alike.store condition]
    rcases condition.eval other.store with fault | (_ | _)
    · exact .same alike
    · exact .same alike
    · exact .same alike
  | goto target => exact .same alike
  | gosub target =>
    have noted := congrArg ((index + 1) :: ·) alike.returns
    exact .same ⟨alike.store, noted, alike.feed, alike.shown⟩
  | ret =>
    simp only [Stmt.exec, alike.returns]
    cases other.returns with
    | nil => exact .same alike
    | cons back rest => exact .same ⟨alike.store, rfl, alike.feed, alike.shown⟩
  | stop => exact .same (alike.emit (.line "Fim do programa."))
  | remark => exact .same alike
  | faulty fault => exact .same alike

/-- So do statements one after another. -/
theorem execAll (alike : state.Alike earlier otherEarlier other) (program : Program) (index : Int)
    (stmts : List Stmt) :
    AlikeOutcomes earlier otherEarlier (Machine.execAll program index stmts state)
      (Machine.execAll program index stmts other) := by
  induction stmts generalizing state other with
  | nil => exact .same alike
  | cons stmt rest inductionHypothesis =>
    have first := alike.exec program index stmt
    rw [Machine.execAll, Machine.execAll]
    generalize stmt.exec program index state = outcome at first ⊢
    generalize stmt.exec program index other = otherOutcome at first ⊢
    cases first with
    | @same result after otherAfter alike =>
      rcases result with fault | (_ | next)
      · exact .same alike
      · exact inductionHypothesis alike
      · exact .same alike

/-- So does a line. -/
theorem execLine (alike : state.Alike earlier otherEarlier other) (program : Program)
    (index : Int) :
    AlikeOutcomes earlier otherEarlier (program.execLine index state)
      (program.execLine index other) := by
  rw [Program.execLine, Program.execLine]
  cases program.lineAt? index with
  | some line => exact alike.execAll program index line.statements
  | none => exact .same alike

end State.Alike

/-! ## Runs -/

/-- The same line executed in states that are alike, which leaves states that are alike. -/
structure LineRun.Alike {program : Program} (earlier otherEarlier : List Event)
    (run other : LineRun program) : Prop where
  index : run.index = other.index
  before : run.before.Alike earlier otherEarlier other.before
  after : run.after.Alike earlier otherEarlier other.after

/-- Two reports with the same ending and with states that are alike. -/
structure Report.Alike (earlier otherEarlier : List Event) (report other : Report) : Prop where
  ending : report.ending = other.ending
  state : report.state.Alike earlier otherEarlier other.state

/-- Runs from states that are alike execute the same lines, in states that are alike, and leave
reports that are alike. -/
theorem State.Alike.runFrom (alike : state.Alike earlier otherEarlier other) (program : Program)
    (limit : Nat) (index : Int) :
    List.Forall₂ (LineRun.Alike earlier otherEarlier) (lineRuns program limit index state)
        (lineRuns program limit index other) ∧
      (Machine.runFrom program limit index state []).Alike earlier otherEarlier
        (Machine.runFrom program limit index other []) := by
  induction limit generalizing index state other with
  | zero =>
    unfold lineRuns Machine.runFrom
    split
    · exact ⟨.nil, rfl, alike⟩
    · exact ⟨.nil, rfl, alike⟩
  | succ limit inductionHypothesis =>
    have line := alike.execLine program index
    unfold lineRuns Machine.runFrom
    by_cases inside : index < program.length
    · simp only [if_pos inside, LineRun.result]
      generalize ran : program.execLine index state = outcome at line ⊢
      generalize otherRan : program.execLine index other = otherOutcome at line ⊢
      cases line with
      | @same result after otherAfter alikeAfter =>
        have first : LineRun.Alike earlier otherEarlier (⟨index, state⟩ : LineRun program)
            ⟨index, other⟩ := by
          refine ⟨rfl, alike, ?_⟩
          rwa [LineRun.after, LineRun.after, ran, otherRan]
        cases result with
        | error fault => exact ⟨.cons first .nil, rfl, alikeAfter⟩
        | ok next =>
          dsimp only
          by_cases ended : next = -1
          · simp only [if_pos ended]
            exact ⟨.cons first .nil, rfl, alikeAfter⟩
          · simp only [if_neg ended, LineRun.after, ran, otherRan]
            obtain ⟨lines, ending, last⟩ := inductionHypothesis alikeAfter next
            rw [runFrom_visits, runFrom_visits program limit next otherAfter]
            exact ⟨.cons first lines, ending, last⟩
    · simp only [if_neg inside]
      exact ⟨.nil, rfl, alike⟩

/-- A variable that has not been set cannot be told from one that is zero. Let two machines be at
the same line of a program, with the same returns and the same input to come, and let every
variable have the same value in both, though other variables may have been set in each. Then for
every limit they execute the same lines, the one with a fault included, and after each of them
every variable has the same value in both. They show the same, use up the same input, have the same
returns in the end, and end alike, with the same fault if there is one.

A statement evaluates by asking for the values of variables, so stores that agree give it the same
results, and it leaves stores that agree. The relation between the two machines is kept by each
statement, by each line, and by induction over the limit by the run. -/
theorem runFrom_unset (program : Program) (limit : Nat) (index : Int) {state other : State}
    (returns : state.returns = other.returns) (feed : state.feed = other.feed)
    (agrees : ∀ name, state.store.get name = other.store.get name) :
    let lines := lineRuns program limit index state
    let otherLines := lineRuns program limit index other
    let report := runFrom program limit index state []
    let otherReport := runFrom program limit index other []
    List.Forall₂ (fun line otherLine => line.index = otherLine.index ∧
        ∀ name, line.after.store.get name = otherLine.after.store.get name) lines otherLines ∧
      (∃ events, report.state.log = events ++ state.log ∧
        otherReport.state.log = events ++ other.log) ∧
      report.state.feed = otherReport.state.feed ∧
      report.state.returns = otherReport.state.returns ∧
      report.ending = otherReport.ending ∧
      ∀ name, report.state.store.get name = otherReport.state.store.get name := by
  intro lines otherLines report otherReport
  have alike : state.Alike state.log other.log other :=
    ⟨agrees, returns, feed, [], rfl, rfl⟩
  obtain ⟨sameLines, ending, last⟩ := alike.runFrom program limit index
  refine ⟨?_, last.shown, last.feed, last.returns, ending, last.store⟩
  exact sameLines.imp fun line otherLine same => ⟨same.index, same.after.store⟩

/-- One machine has set more variables than the other and has shown something before. A sum is
printed, and a division by an unset variable fails in the middle of the second line. -/
theorem runFrom_unset_division :
    let program : Program := [
      ⟨.number 10, [.assign (.text "A") (.binary .plus (.var (.text "A")) (.var (.text "B"))),
        .gosub (.number 20)]⟩,
      ⟨.number 20, [.print [.value (.var (.text "A"))],
        .print [.value (.binary .dividedBy (.var (.text "A")) (.var (.text "C")))]]⟩]
    let feed : Feed := ⟨[], .endOfInput⟩
    let state : State := ⟨⟨[(.text "B", .number 5)]⟩, [], feed, []⟩
    let other : State := ⟨⟨[(.text "B", .number 5), (.text "C", .number 0)]⟩, [], feed,
      [.line "before"]⟩
    (runFrom program 9 0 state []).ending = .faulted .divisionByZero ∧
      (runFrom program 9 0 other []).ending = .faulted .divisionByZero ∧
      (runFrom program 9 0 other []).state.log = [.line "5", .line "before"] ∧
      (runFrom program 9 0 other []).state.returns = [1] := by
  intro program feed state other
  have agrees : ∀ name, state.store.get name = other.store.get name := by
    intro name
    simp [state, other, Store.get, Store.lookup]
  have failed : (runFrom program 9 0 state []).ending = .faulted .divisionByZero := by
    decide +kernel
  have printed : (runFrom program 9 0 state []).state.log = [.line "5"] := by decide +kernel
  have called : (runFrom program 9 0 state []).state.returns = [1] := by decide +kernel
  have returns : state.returns = other.returns := rfl
  have sameFeed : state.feed = other.feed := rfl
  obtain ⟨-, ⟨events, shown, otherShown⟩, -, sameReturns, sameEnding, -⟩ :=
    runFrom_unset program 9 0 returns sameFeed agrees
  have isEvents : events = [.line "5"] := by
    rw [printed] at shown
    exact (shown.trans (List.append_nil events)).symm
  rw [isEvents] at otherShown
  exact ⟨failed, sameEnding.symm.trans failed, otherShown, sameReturns.symm.trans called⟩

end Machine

end LineBasic
