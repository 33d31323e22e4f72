import LineBasic.Proofs.ReturnStack
import Mathlib.Algebra.GroupWithZero.Nat

/-!
# Programs that only jump forward

A program of which every jump leads to a later line still goes back: a return leads behind
the line of its call, and lines are executed again. Yet every run ends, and a program of
`n` lines executes at most `2 ^ n - 1` of them.

The index of the line to come is no measure of what is left to do, since the returns
noted so far will be followed as well. So each index is weighed by the most lines that a
run from there can execute, and the load of a state is the weight of the index together
with the weights of all returns. Passing on to the next line halves the weight of an index,
and that leaves room for a call, which puts a later line and the line behind its own in the
place of one.
-/

namespace LineBasic

open Machine

/-- Every jump that leads anywhere leads to a line behind its own. -/
def Program.ForwardJumps (program : Program) : Prop :=
  ∀ index : Fin program.length, ∀ stmt ∈ (program.get index).statements, ∀ jump ∈ stmt.jump?,
    ∀ position ∈ program.indexOf? jump.2, index.val < position

instance (program : Program) : Decidable program.ForwardJumps :=
  inferInstanceAs (Decidable (∀ index : Fin program.length,
    ∀ stmt ∈ (program.get index).statements, ∀ jump ∈ stmt.jump?,
      ∀ position ∈ program.indexOf? jump.2, index.val < position))

namespace Machine

/-! ## Lines -/

/-- A statement that lets the line go on leaves the returns as they are. -/
theorem Control.goesOn_returns {program : Program} {index : Int} {stmt : Stmt}
    {returns left : List Int} (control : Control program index stmt returns (.ok none) left) :
    left = returns := by
  cases control with
  | passes => rfl

/-- A line without a fault leaves the returns as they are and passes on to the next one, or
else one of its statements decides. -/
theorem execAll_control {program : Program} {index next : Int} {stmts : List Stmt}
    {state after : State} (ran : execAll program index stmts state = (.ok next, after)) :
    (next = index + 1 ∧ after.returns = state.returns) ∨
      ∃ stmt ∈ stmts,
        Control program index stmt state.returns (.ok (some next)) after.returns := by
  induction stmts generalizing state with
  | nil =>
    rw [execAll] at ran
    cases ran
    exact .inl ⟨rfl, rfl⟩
  | cons stmt rest inductionHypothesis =>
    have control := exec_control program index stmt state
    rw [execAll] at ran
    rcases executed : stmt.exec program index state with ⟨fault | choice, between⟩
    · rw [executed] at ran
      cases ran
    · rw [executed] at ran control
      cases choice with
      | some chosen =>
        cases ran
        exact .inr ⟨stmt, List.mem_cons_self, control⟩
      | none =>
        have unchanged : between.returns = state.returns := control.goesOn_returns
        rcases inductionHypothesis ran with ⟨onward, kept⟩ | ⟨other, among, decides⟩
        · exact .inl ⟨onward, kept.trans unchanged⟩
        · exact .inr ⟨other, .tail _ among, unchanged ▸ decides⟩

/-! ## Weights -/

/-- The most lines that a run from an index can execute if it finds no returns. -/
def weight (program : Program) (index : Int) : Nat := 2 ^ (program.length - index).toNat - 1

/-- The weight of an index and of all returns together. -/
def load (program : Program) (index : Int) (returns : List Int) : Nat :=
  weight program index + (returns.map (weight program)).sum

variable {program : Program} {index : Int}

/-- The weight of a line is one more than twice that of the next. -/
theorem weight_eq (inside : index < program.length) :
    weight program index = 2 * weight program (index + 1) + 1 := by
  have further : (program.length - index).toNat = (program.length - (index + 1)).toNat + 1 := by
    omega
  have positive := Nat.two_pow_pos (program.length - (index + 1)).toNat
  rw [weight, weight, further, Nat.pow_succ]
  omega

/-- Later lines weigh no more than earlier ones. -/
theorem weight_le {later : Int} (behind : index ≤ later) :
    weight program later ≤ weight program index := by
  have fewer : (program.length - later).toNat ≤ (program.length - index).toNat := by omega
  exact Nat.sub_le_sub_right (Nat.pow_le_pow_right (by decide) fewer) 1

/-- A statement that decides how to go on lowers the load, unless it is the end. -/
theorem Control.load_lt {stmt : Stmt} {returns left : List Int} {next : Int}
    (control : Control program index stmt returns (.ok (some next)) left)
    (inside : index < program.length) (goesOn : next ≠ -1)
    (forward : ∀ jump target, stmt.jump? = some (jump, target) →
      ∀ position, program.indexOf? target = some position → index < position) :
    load program next left < load program index returns := by
  have halved := weight_eq inside
  cases control with
  | @jumps _ jump target position _ isJump _ found =>
    have lighter : weight program position ≤ weight program (index + 1) :=
      weight_le (forward jump target isJump position found)
    simp only [load]
    omega
  | @calls target position _ found =>
    have lighter : weight program position ≤ weight program (index + 1) :=
      weight_le (forward .gosub target rfl position found)
    simp only [load, List.map_cons, List.sum_cons]
    omega
  | comesBack =>
    simp only [load, List.map_cons, List.sum_cons]
    omega
  | ends => exact absurd rfl goesOn

/-- Every line of a program that only jumps forward lowers the load, unless it ends the run. -/
theorem Ready.load_lt {next : Int} {state after : State} (ready : Ready program index state)
    (forward : program.ForwardJumps) (inside : index < program.length)
    (ran : program.execLine index state = (.ok next, after)) (goesOn : next ≠ -1) :
    load program next after.returns < load program index state.returns := by
  have notNegative := ready.notNegative
  obtain ⟨line, found, stands⟩ := Program.lineAt?_within notNegative inside
  rw [Program.execLine, found] at ran
  rcases execAll_control ran with ⟨rfl, kept⟩ | ⟨stmt, among, control⟩
  · have halved := weight_eq inside
    rw [kept, load, load]
    omega
  · refine control.load_lt inside goesOn ?_
    intro jump target isJump position leads
    obtain ⟨bound, rfl⟩ := List.getElem?_eq_some_iff.mp stands
    have behind : index.toNat < position :=
      forward ⟨index.toNat, bound⟩ stmt among (jump, target) isJump position leads
    omega

/-! ## Runs -/

/-- Within a limit that is no less than the load a run ends, and executes no more lines than
the load. -/
theorem runFrom_ends {limit : Nat} {state : State} (visits : List Visit)
    (forward : program.ForwardJumps) (ready : Ready program index state)
    (enough : load program index state.returns ≤ limit) :
    (runFrom program limit index state visits).ending ≠ .unfinished ∧
      (runFrom program limit index state visits).lines ≤
        visits.length + load program index state.returns := by
  have least {index : Int} (inside : index < program.length) (returns : List Int) :
      1 ≤ load program index returns := by
    have halved := weight_eq inside
    rw [load]
    omega
  fun_induction runFrom program limit index state visits with
  | case1 index state visits inside =>
    have some := least inside state.returns
    omega
  | case2 index state visits inside limit after ran visited =>
    have some := least inside state.returns
    refine ⟨by simp, ?_⟩
    simp only [Report.lines, visited, List.length_cons]
    omega
  | case3 index state visits inside limit next after ran visited goesOn =>
    rename_i inductionHypothesis
    have lower := ready.load_lt forward inside ran goesOn
    have longer : visited.length = visits.length + 1 := rfl
    obtain ⟨ends, few⟩ := inductionHypothesis (ready.next inside ran goesOn).1 (by omega)
    exact ⟨ends, by omega⟩
  | case4 index state visits inside limit fault after ran =>
    have some := least inside state.returns
    refine ⟨by simp, ?_⟩
    simp only [Report.lines]
    omega
  | case5 limit index state visits past => simp [Report.lines]

/-- Every run of a program that only jumps forward ends, normally or with a fault, whatever the
input. A program of `n` lines executes at most `2 ^ n - 1` lines until then, and no limit from
there on makes a difference.

The load of a state is the weight of the line to come together with the weights of the lines to
which returns lead, a line weighing one more than twice the next. Whichever way a line ends, by
itself, by a jump forward, by a call or by a return, it leaves a load that is smaller by at least
one. At the start the load is `2 ^ n - 1`. -/
theorem run_ends_of_forward (forward : program.ForwardJumps) (feed : Feed) (limit : Nat)
    (enough : 2 ^ program.length - 1 ≤ limit) :
    let report := run program limit (.initial feed)
    (report.ending = .completed ∨ ∃ fault, report.ending = .faulted fault) ∧
      report.lines ≤ 2 ^ program.length - 1 ∧
      report = run program (2 ^ program.length - 1) (.initial feed) := by
  intro report
  have whole : load program 0 (State.initial feed).returns = 2 ^ program.length - 1 := by
    simp [load, weight, State.initial]
  obtain ⟨ends, few⟩ := runFrom_ends [] forward (.initial program feed) (Nat.le_of_eq whole)
  have same : report = run program (2 ^ program.length - 1) (.initial feed) :=
    runFrom_limit enough ends
  rw [same]
  refine ⟨?_, ?_, rfl⟩
  · cases ended : (run program (2 ^ program.length - 1) (.initial feed)).ending with
    | completed => exact .inl rfl
    | faulted fault => exact .inr ⟨fault, rfl⟩
    | unfinished => exact absurd ended ends
  · rw [whole] at few
    exact Nat.le_trans few (Nat.le_of_eq (Nat.zero_add _))

/-- The bound is reached: each of two calls leads to the next line, which the return behind
it executes once more. -/
theorem run_ends_of_forward_sharp :
    let program : Program := [⟨.number 10, [.gosub (.number 20)]⟩,
      ⟨.number 20, [.gosub (.number 30)]⟩, ⟨.number 30, [.ret]⟩]
    let report := run program 1000 (.initial ⟨[], .endOfInput⟩)
    program.ForwardJumps ∧ report.lines = 2 ^ program.length - 1 ∧
      (report.ending = .completed ∨ ∃ fault, report.ending = .faulted fault) ∧
      report = run program (2 ^ program.length - 1) (.initial ⟨[], .endOfInput⟩) := by
  intro program report
  have forward : program.ForwardJumps := by decide
  obtain ⟨ends, -, same⟩ := run_ends_of_forward forward ⟨[], .endOfInput⟩ 1000 (by decide)
  exact ⟨forward, by decide, ends, same⟩

end Machine

end LineBasic
