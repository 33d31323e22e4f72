import LineBasic.Proofs.WindowHistory

/-!
# Where a run leaves printing and asking

A run redirects printing and asking to the window, executes its program, and then gives them back. A
fault skips what comes behind it, this step included. The window does not show it, because the next
run redirects both again: what that run gives back is what it found, which is what the faulty run
has left. So after any actions printing and asking are where the last run with a fault has put them.
-/

namespace LineBasic.Window

open Machine

/-- There is a text, it can be read, and its program stops with a fault. -/
def Press.Faults (press : Press) (limit : Nat) : Prop :=
  ∃ ran ∈ press.execution? limit, ∃ fault, ran.2.ending = .faulted fault

/-- Where presses leave printing and asking: with the system if none has a fault, and else as
redirected by the last one that has. -/
inductive LeftBy (limit : Nat) : List Press → Terminal → Prop where
  | untouched {presses : List Press} (faultless : ∀ press ∈ presses, ¬ press.Faults limit) :
      LeftBy limit presses .system
  | redirected {earlier : List Press} {press : Press} {later : List Press}
      (faults : press.Faults limit) (faultless : ∀ other ∈ later, ¬ other.Faults limit) :
      LeftBy limit (earlier ++ press :: later) (.redirected (earlier.length + 1))

section Redirection

variable {window : Window} {limit : Nat} {presses : List Press} {answers : List (Option String)}

namespace LeftBy

variable {terminal : Terminal}

/-- A press without a fault leaves them where they are. -/
theorem faultless {press : Press} (left : LeftBy limit presses terminal)
    (sound : ¬ press.Faults limit) : LeftBy limit (presses ++ [press]) terminal := by
  cases left with
  | untouched faultless =>
    exact .untouched (List.forall_mem_append.mpr ⟨faultless, List.forall_mem_singleton.mpr sound⟩)
  | redirected faults faultless =>
    rw [List.append_assoc, List.cons_append]
    exact .redirected faults
      (List.forall_mem_append.mpr ⟨faultless, List.forall_mem_singleton.mpr sound⟩)

/-- A press with a fault leaves them redirected by itself. -/
theorem faulty {press : Press} (faults : press.Faults limit) :
    LeftBy limit (presses ++ [press]) (.redirected (presses.length + 1)) :=
  .redirected faults (List.forall_mem_nil _)

/-- No press to come has redirected them yet. -/
theorem ne_next (left : LeftBy limit presses terminal) :
    terminal ≠ .redirected (presses.length + 1) := by
  cases left with
  | untouched faultless => exact Terminal.noConfusion
  | redirected faults faultless =>
    intro same
    have number := Terminal.redirected.inj same
    simp only [List.length_append, List.length_cons] at number
    omega

end LeftBy

/-- A press that comes to a stop executes nothing, or gets to the end, or has a fault. -/
theorem Press.stops_cases {press : Press} (stops : Stops limit [press]) :
    (press.program? = none ∨ press.Succeeds limit) ∧ ¬ press.Faults limit ∨
      press.Faults limit := by
  have stopped := stops press (List.mem_singleton_self press)
  unfold Succeeds Faults
  unfold execution? at stopped ⊢
  cases isProgram : press.program? with
  | none => exact .inl ⟨.inl rfl, by simp⟩
  | some program =>
    rw [isProgram] at stopped
    cases isEnding : (press.report limit program).ending with
    | completed => exact .inl ⟨.inr ⟨_, rfl, isEnding⟩, by simp [isEnding]⟩
    | faulted fault => exact .inr ⟨_, rfl, fault, isEnding⟩
    | unfinished => exact absurd isEnding (stopped _ rfl)

/-- A run that executes nothing or gets to the end gives back what it found. -/
theorem run_gives_back
    (sound : Press.program? ⟨window.toRun, answers⟩ = none ∨
      Press.Succeeds ⟨window.toRun, answers⟩ limit) :
    (window.run answers limit).1.terminal = window.terminal := by
  rw [run_eq]
  rcases sound with nothing | ⟨ran, executed, completed⟩
  · simp only [Press.execution?, nothing, Option.map_none, Option.getD_none]
  · simp only [Option.mem_def.mp executed, Option.map_some, Option.getD_some, if_pos completed]

/-- A run with a fault keeps what it has redirected. -/
theorem run_keeps (faults : Press.Faults ⟨window.toRun, answers⟩ limit) :
    (window.run answers limit).1.terminal = .redirected (window.runs + 1) := by
  obtain ⟨ran, executed, fault, isFault⟩ := faults
  have incomplete : ran.2.ending ≠ .completed := by simp [isFault]
  rw [run_eq]
  simp only [Option.mem_def.mp executed, Option.map_some, Option.getD_some, if_neg incomplete]

/-- Runs are numbered by the presses, and the terminal is the one that these leave. -/
structure Redirects (limit : Nat) (presses : List Press) (window : Window) : Prop where
  runs : window.runs = presses.length
  left : LeftBy limit presses window.terminal

/-- A run that comes to a stop adds its press, and leaves the terminal as that press does. -/
theorem Redirects.run (redirects : Redirects limit presses window)
    (stops : Stops limit [⟨window.toRun, answers⟩]) :
    Redirects limit (presses ++ [⟨window.toRun, answers⟩]) (window.run answers limit).1 := by
  constructor
  · rw [run_eq, List.length_append, List.length_singleton, ← redirects.runs]
  · rcases Press.stops_cases stops with ⟨sound, faultless⟩ | faults
    · rw [run_gives_back sound]
      exact redirects.left.faultless faultless
    · rw [run_keeps faults, redirects.runs]
      exact LeftBy.faulty faults

/-- An action adds its press, if it is a run, and touches the terminal only then. -/
theorem Redirects.act (redirects : Redirects limit presses window) {action : Action}
    (stops : Stops limit (window.press? action).toList) :
    Redirects limit (presses ++ (window.press? action).toList) (window.act limit action).1 := by
  cases action with
  | edit text =>
    rw [press?, Option.toList_none, List.append_nil]
    exact ⟨redirects.runs, redirects.left⟩
  | load file =>
    rw [press?, Option.toList_none, List.append_nil, act_load]
    cases (Action.load file).opened? with
    | none => exact redirects
    | some source => exact ⟨redirects.runs, redirects.left⟩
  | run answers => exact redirects.run stops

/-- So after any actions the terminal is as the presses among them have left it. The induction is on
the actions, the last of them first. -/
theorem redirects_after {history : List Action}
    (stops : Stops limit (initial.presses limit history)) :
    Redirects limit (initial.presses limit history) (initial.after limit history) := by
  induction history using List.reverseRecOn with
  | nil => exact ⟨rfl, .untouched (List.forall_mem_nil _)⟩
  | append_singleton history action inductionHypothesis =>
    rw [presses_append, presses_singleton] at stops ⊢
    obtain ⟨others, last⟩ := List.forall_mem_append.mp stops
    rw [after_append, after_singleton]
    exact (inductionHypothesis others).act last

/-- A run that comes to a stop does not always give printing and asking back. It does so exactly
if it executes nothing, for want of a text that can be cut and read, or if its program gets to the
end. What it gives back is what it found, and this is the system's terminal only if no run before
it had a fault. A run with a fault leaves both redirected by itself, wherever they were.

The step is that an action leaves the terminal as its press does: a run gives back what it found, or
keeps what it has redirected if there is a fault. By induction over the actions the terminal is
where the presses have left it. No earlier press has the number of this one, so a run with a fault
changes it. -/
theorem run_terminal {limit : Nat} {history : List Action} {answers : List (Option String)}
    (stops : Stops limit (initial.presses limit (history ++ [.run answers]))) :
    let presses := initial.presses limit history
    let before := initial.after limit history
    let press : Press := ⟨before.toRun, answers⟩
    let after := (before.act limit (.run answers)).1
    LeftBy limit presses before.terminal ∧
    ((press.program? = none ∨ press.Succeeds limit) ∧ after.terminal = before.terminal ∨
      press.Faults limit ∧ after.terminal = .redirected (presses.length + 1) ∧
        after.terminal ≠ before.terminal) ∧
    ∀ most, limit ≤ most → initial.after most (history ++ [.run answers]) = after := by
  intro presses before press after
  have isAfter : initial.after limit (history ++ [.run answers]) = after := after_append _
  have limits : ∀ most, limit ≤ most → initial.after most (history ++ [.run answers]) = after :=
    fun most enough => (after_limit enough stops).trans isAfter
  rw [presses_append, presses_singleton] at stops
  obtain ⟨others, last⟩ := List.forall_mem_append.mp stops
  have redirects : Redirects limit presses before := redirects_after others
  refine ⟨redirects.left, ?_, limits⟩
  rcases Press.stops_cases last with ⟨sound, -⟩ | faults
  · exact .inl ⟨sound, run_gives_back sound⟩
  · have kept : after.terminal = .redirected (presses.length + 1) :=
      redirects.runs ▸ run_keeps faults
    exact .inr ⟨faults, kept, kept ▸ redirects.left.ne_next.symm⟩

/-- A division by zero redirects both, and the program that gets to the end after it gives them
back as the first run has left them. -/
theorem run_terminal_after_fault :
    let history : List Action :=
      [.edit "10 PRINT 1 / 0", .run [], .load (some [0x32, 0x20, 0x45, 0x4E, 0x44])]
    let window := initial.after 9 (history ++ [.run []])
    window.terminal = .redirected 1 := by
  intro history window
  have stops : Stops 9 (initial.presses 9 (history ++ [.run []])) := by decide +kernel
  have found : (initial.after 9 history).terminal = .redirected 1 := by decide +kernel
  have unfaulted : ((initial.after 9 history).act 9 (.run [])).1.terminal ≠
      .redirected ((initial.presses 9 history).length + 1) := by decide +kernel
  obtain ⟨-, ⟨-, same⟩ | ⟨-, redirected, -⟩, limits⟩ := run_terminal stops
  · exact (congrArg terminal (limits 9 le_rfl)).trans (same.trans found)
  · exact absurd redirected unfaulted

/-- A division by zero in the first run, which finds the system's terminal. -/
theorem run_keeps_redirected :
    let before := initial.after 9 [.edit "10 PRINT 1 / 0"]
    let after := (before.act 9 (.run [])).1
    before.terminal = .system ∧ after.terminal = .redirected 1 ∧
      after.terminal ≠ before.terminal := by
  decide +kernel

end Redirection

end LineBasic.Window
