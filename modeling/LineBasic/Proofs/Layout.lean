import LineBasic.Proofs.ReturnStack

/-!
# The same statements in another layout

A program can be laid out anew: its lines stand at other indexes, or have other numbers.
A statement sees nothing of that but the destinations of jumps, the index that a call notes
and the returns. So it does the same in both layouts, up to where indexes are placed and
what labels are called, and where it fails in one it fails in the other.

The faults that a statement has by itself do not depend on the layout at all. Only the fault
of a jump without a destination does, since it names the line.
-/

namespace LineBasic

open Machine

/-! ## Labels -/

/-- The numbers of lines to which statements may jump. -/
def Program.targets (program : Program) : List Value :=
  program.flatMap fun line => line.statements.filterMap fun stmt => stmt.jump?.map Prod.snd

/-- All numbers of lines that a program names: those that its lines have, and those to which
statements may jump. -/
def Program.labels (program : Program) : List Value :=
  program.map Line.number ++ program.targets

/-- The target of a jump is among the targets. -/
theorem Program.mem_targets {program : Program} {line : Line} {stmt : Stmt} {jump : Jump}
    {target : Value} (isLine : line ∈ program) (among : stmt ∈ line.statements)
    (isJump : stmt.jump? = some (jump, target)) : target ∈ program.targets := by
  refine List.mem_flatMap.mpr ⟨line, isLine, List.mem_filterMap.mpr ⟨stmt, among, ?_⟩⟩
  rw [isJump]
  rfl

/-- The statement with another label for the line that it jumps to. -/
def Stmt.relabel (label : Value → Value) : Stmt → Stmt
  | .branch condition target => .branch condition (label target)
  | .goto target => .goto (label target)
  | .gosub target => .gosub (label target)
  | stmt => stmt

/-- Labels that stay as they are change nothing. -/
theorem Stmt.relabel_id (stmt : Stmt) : stmt.relabel id = stmt := by
  cases stmt <;> rfl

namespace Machine

/-! ## States -/

/-- The state with its returns at other places. -/
def State.relocate (place : Int → Int) (state : State) : State :=
  { state with returns := state.returns.map place }

/-- Relocating the returns keeps the variables. -/
@[simp]
theorem State.relocate_store (place : Int → Int) (state : State) :
    (state.relocate place).store = state.store := rfl

/-- Relocating the returns keeps the input to come. -/
@[simp]
theorem State.relocate_feed (place : Int → Int) (state : State) :
    (state.relocate place).feed = state.feed := rfl

/-- The returns themselves are relocated one by one. -/
@[simp]
theorem State.relocate_returns (place : Int → Int) (state : State) :
    (state.relocate place).returns = state.returns.map place := rfl

/-- Returns that stay in their places change nothing. -/
theorem State.relocate_id (state : State) : state.relocate id = state := by
  simp [State.relocate]

/-! ## Statements -/

/-- The faults that a statement may have in a state by itself. -/
inductive Raises (state : State) : Stmt → Fault → Prop where
  | assign {name : Value} {expr : Expr} {fault : Fault}
      (failed : expr.eval state.store = .error fault) : Raises state (.assign name expr) fault
  | print {items : List PrintItem} {fault : Fault}
      (failed : printedLine state.store items = .error fault) : Raises state (.print items) fault
  | unshown (name : Value) : Raises state (.input name) .numeralTooLong
  | input {name : Value} {fault : Fault} (failed : state.feed.next.1 = .error fault) :
      Raises state (.input name) fault
  | branch {condition : Condition} {target : Value} {fault : Fault}
      (failed : condition.eval state.store = .error fault) :
      Raises state (.branch condition target) fault
  | ret : Raises state .ret .returnWithoutGosub
  | faulty (fault : Fault) : Raises state (.faulty fault) fault

/-- What a statement gives and leaves when indexes are placed elsewhere and faults are renamed. -/
def relaid (place : Int → Int) (rename : Fault → Fault)
    (outcome : Except Fault (Option Int) × State) : Except Fault (Option Int) × State :=
  ((outcome.1.map (Option.map place)).mapError rename, outcome.2.relocate place)

/-- A success is laid out with its next index and its state in other places. -/
theorem relaid_ok (place : Int → Int) (rename : Fault → Fault) (next : Option Int)
    (after : State) :
    relaid place rename (.ok next, after) = (.ok (next.map place), after.relocate place) := rfl

/-- A fault is laid out under its new name, with the state in other places. -/
theorem relaid_error (place : Int → Int) (rename : Fault → Fault) (fault : Fault)
    (after : State) :
    relaid place rename (.error fault, after) = (.error (rename fault), after.relocate place) := rfl

/-- Where indexes stay in their places, only faults are renamed. -/
theorem relaid_id (rename : Fault → Fault) (outcome : Except Fault (Option Int) × State) :
    relaid id rename outcome = (outcome.1.mapError rename, outcome.2) := by
  rw [relaid, State.relocate_id, Option.map_id, Except.map_id, id]

/-- A statement does the same in another layout if jumps lead to the same lines, a call notes the
same line, and the faults that it has by itself keep their names. -/
theorem exec_relaid {place : Int → Int} {label : Value → Value} {rename : Fault → Fault}
    {program other : Program} {index piece : Int} {stmt : Stmt} {state : State}
    (destinations : ∀ jump target, stmt.jump? = some (jump, target) →
      other.destination jump (label target) =
        ((program.destination jump target).map (Option.map place)).mapError rename)
    (behind : stmt.isCall = true → piece + 1 = place (index + 1)) (atEnd : place (-1) = -1)
    (own : ∀ fault, Raises state stmt fault → rename fault = fault) :
    (stmt.relabel label).exec other piece (state.relocate place) =
      relaid place rename (stmt.exec program index state) := by
  have fails {fault : Fault} (raised : Raises state stmt fault) (after : State) :
      (.error fault, after.relocate place) = relaid place rename (.error fault, after) := by
    rw [relaid_error, own fault raised]
  cases stmt with
  | assign name expr =>
    simp only [Stmt.relabel, Stmt.exec, State.relocate_store]
    cases evaluated : expr.eval state.store with
    | ok value => rfl
    | error fault => exact fails (.assign evaluated) state
  | print items =>
    simp only [Stmt.relabel, Stmt.exec, State.relocate_store]
    cases printed : printedLine state.store items with
    | ok text => rfl
    | error fault => exact fails (.print printed) state
  | input name =>
    simp only [Stmt.relabel, Stmt.exec]
    cases name.shown? with
    | none => exact fails (.unshown name) state
    | some shown =>
      simp only [State.emit, State.relocate_feed]
      rcases replied : state.feed.next with ⟨fault | n, feed⟩
      · exact fails (.input (congrArg Prod.fst replied)) { state.emit (.prompt shown) with feed }
      · rfl
  | branch condition target =>
    simp only [Stmt.relabel, Stmt.exec, State.relocate_store]
    cases evaluated : condition.eval state.store with
    | error fault => exact fails (.branch evaluated) state
    | ok holds =>
      cases holds with
      | false => rfl
      | true => exact Prod.ext (destinations .branch target rfl) rfl
  | goto target => exact Prod.ext (destinations .goto target rfl) rfl
  | gosub target =>
    refine Prod.ext (destinations .gosub target rfl) ?_
    simp [Stmt.relabel, Stmt.exec, relaid, State.relocate, behind rfl]
  | ret =>
    simp only [Stmt.relabel, Stmt.exec, State.relocate_returns]
    cases noted : state.returns with
    | nil => exact fails .ret state
    | cons back rest => rfl
  | stop =>
    rw [Stmt.exec, relaid_ok, Option.map_some, atEnd]
    rfl
  | remark => rfl
  | faulty fault => exact fails (.faulty fault) state

end Machine

end LineBasic
