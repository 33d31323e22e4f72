import LineBasic.Program.Data
import LineBasic.Source

/-!
# Single steps

A machine with a program given as data can be asked for single steps: to run, to
execute a line or a statement, and to evaluate an expression or a condition. What a
step is about is given as data too. The result of a step is a value, which is absent
when the step has none.
-/

namespace LineBasic

open Machine

/-- Executes the line at an index given as data. -/
def Program.execLineAt (program : Program) (index : Value) (state : State) :
    Except Fault Int × State :=
  match index.amount? with
  | some n => program.execLine n state
  | none => (.error (.notAnIndex index.kind), state)

/-- Executes a statement as one of the line at an index given as data. Only a subroutine
call looks at the index, to note the one after it. -/
def Stmt.execAt (program : Program) (index : Value) (stmt : Stmt) (state : State) :
    Except Fault (Option Int) × State :=
  match index.amount?, stmt with
  | some n, _ => stmt.exec program n state
  | none, .gosub _ => ((index.plus (.number 1)).map fun _ => none, state)
  | none, _ => stmt.exec program 0 state

namespace Machine

/-- What a machine can be asked to do. -/
inductive Step where
  | run
  | line (index : Value)
  | statement (node index : Value)
  | expression (node : Value)
  | condition (node : Value)
deriving DecidableEq, Repr

/-- How many lines a run as a single step may execute. -/
def stepLimit : Nat := 200

/-- Carries out a step. -/
def Step.perform (program : Program) (state : State) : Step → Except Failure Value × State
  | .run =>
    let report := Machine.run program stepLimit state
    match report.ending.failure? with
    | none => (.ok .absent, report.state)
    | some failure => (.error failure, report.state)
  | .line index =>
    let (result, after) := program.execLineAt index state
    ((result.map .number).mapError .fault, after)
  | .statement node index =>
    let (result, after) := (Stmt.ofValue node).execAt program index state
    ((result.map fun next => (next.map Value.number).getD .absent).mapError .fault, after)
  | .expression node => (((Expr.ofValue node).eval state.store).mapError .fault, state)
  | .condition node =>
    ((((Condition.ofValue node).eval state.store).map .truth).mapError .fault, state)

end Machine

end LineBasic
