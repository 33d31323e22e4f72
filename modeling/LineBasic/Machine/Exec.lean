import LineBasic.Machine.Eval
import LineBasic.Machine.State

/-!
# Executing statements and lines

A statement leaves the machine in a new state, and either lets the line go on or
ends it with the index of the line to come. A fault, too, leaves a state: what was
done before it stays done. In particular a subroutine call notes where to return
before it looks up its target, so the note stays when the target is missing.

A line that no statement ends is followed by the next one. The index -1 stands
for the end of the program. Otherwise a negative index counts from the last line.
-/

namespace LineBasic

open Machine

namespace Program

/-- The index of the last line with a number. -/
def indexOf? (number : Value) : Program → Option Nat
  | [] => none
  | line :: rest =>
    match indexOf? number rest with
    | some index => some (index + 1)
    | none => if line.number.same number then some 0 else none

/-- The line at an index; a negative one counts from the end. -/
def lineAt? (program : Program) (index : Int) : Option Line :=
  if 0 ≤ index then program[index.toNat]?
  else if 0 ≤ index + program.length then program[(index + program.length).toNat]?
  else none

/-- The index to which a jump leads. -/
def destination (program : Program) (jump : Jump) (target : Value) :
    Except Fault (Option Int) :=
  match program.indexOf? target with
  | some index => .ok (some (index : Int))
  | none => .error (.showing target (.missingLine target jump))

end Program

/-- Executes a statement of the line at an index. The result is the index of the
line to come, if the statement chooses it. -/
def Stmt.exec (program : Program) (index : Int) (stmt : Stmt) (state : State) :
    Except Fault (Option Int) × State :=
  match stmt with
  | .assign name expr =>
    match expr.eval state.store with
    | .ok value => (.ok none, { state with store := state.store.set name value })
    | .error fault => (.error fault, state)
  | .print items =>
    match Machine.printedLine state.store items with
    | .ok text => (.ok none, state.emit (.line text))
    | .error fault => (.error fault, state)
  | .input name =>
    match name.shown? with
    | none => (.error .numeralTooLong, state)
    | some shown =>
      let asked := state.emit (.prompt shown)
      match asked.feed.next with
      | (.ok n, feed) => (.ok none, { asked with store := asked.store.set name (.number n), feed })
      | (.error fault, feed) => (.error fault, { asked with feed })
  | .branch condition target =>
    match condition.eval state.store with
    | .ok true => (program.destination .branch target, state)
    | .ok false => (.ok none, state)
    | .error fault => (.error fault, state)
  | .goto target => (program.destination .goto target, state)
  | .gosub target =>
    (program.destination .gosub target, { state with returns := (index + 1) :: state.returns })
  | .ret =>
    match state.returns with
    | [] => (.error .returnWithoutGosub, state)
    | back :: rest => (.ok (some back), { state with returns := rest })
  | .stop => (.ok (some (-1)), state.emit (.line "Fim do programa."))
  | .remark => (.ok none, state)
  | .faulty fault => (.error fault, state)

/-- Executes statements of the line at an index until one ends the line. -/
def Machine.execAll (program : Program) (index : Int) :
    List Stmt → State → Except Fault Int × State
  | [], state => (.ok (index + 1), state)
  | stmt :: rest, state =>
    match stmt.exec program index state with
    | (.ok none, after) => Machine.execAll program index rest after
    | (.ok (some next), after) => (.ok next, after)
    | (.error fault, after) => (.error fault, after)

/-- Executes the line at an index. The result is the index of the line to come. -/
def Program.execLine (program : Program) (index : Int) (state : State) :
    Except Fault Int × State :=
  match program.lineAt? index with
  | some line => Machine.execAll program index line.statements state
  | none => (.error (if Numeral.countable index then .noSuchIndex else .indexTooLarge), state)

end LineBasic
