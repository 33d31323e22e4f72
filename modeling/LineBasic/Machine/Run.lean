import LineBasic.Machine.Exec

/-!
# Running a program

A run executes lines, from the first one on, until the index leaves the program
at its end, a line gives the index -1, or a fault arises. A limit on the number
of lines keeps every run finite; a run that would exceed it is unfinished, which
is neither an end nor a fault.

The report of a run holds its ending, the state it left, and every line that was
executed without a fault, the latest first.
-/

namespace LineBasic.Machine

/-- How a run ends. -/
inductive Ending where
  | completed
  | faulted (fault : Fault)
  | unfinished
deriving DecidableEq, Repr

/-- A line executed without a fault: its index, the index of the line to come, and
the variables and returns after it. -/
structure Visit where
  index : Int
  next : Int
  store : Store
  returns : List Int
deriving DecidableEq, Repr

/-- What a run leaves. -/
structure Report where
  ending : Ending
  state : State
  visits : List Visit

/-- How many lines a run executed, the one with the fault included. -/
def Report.lines (report : Report) : Nat :=
  match report.ending with
  | .faulted _ => report.visits.length + 1
  | _ => report.visits.length

/-- Runs from the line at an index, after the lines visited so far. -/
def runFrom (program : Program) : (limit : Nat) → Int → State → List Visit → Report
  | limit, index, state, visits =>
    if index < program.length then
      match limit with
      | 0 => ⟨.unfinished, state, visits⟩
      | limit + 1 =>
        match program.execLine index state with
        | (.ok next, after) =>
          let visited := ⟨index, next, after.store, after.returns⟩ :: visits
          if next = -1 then ⟨.completed, after, visited⟩
          else runFrom program limit next after visited
        | (.error fault, after) => ⟨.faulted fault, after, visits⟩
    else
      ⟨.completed, state, visits⟩

section Rounds

variable {program : Program} {limit : Nat} {index next : Int} {state after : State}
  {visits : List Visit}

/-- Past the last line a run has come to its end. -/
theorem runFrom_past (past : ¬ index < program.length) :
    runFrom program limit index state visits = ⟨.completed, state, visits⟩ := by
  unfold runFrom
  rw [if_neg past]

/-- A line that gives the index -1 is the last of a run. -/
theorem runFrom_ended (inside : index < program.length)
    (ran : program.execLine index state = (.ok (-1), after)) :
    runFrom program (limit + 1) index state visits =
      ⟨.completed, after, ⟨index, -1, after.store, after.returns⟩ :: visits⟩ := by
  simp [runFrom, inside, ran]

/-- A line with a fault is the last of a run, and not among its visits. -/
theorem runFrom_faulted {fault : Fault} (inside : index < program.length)
    (ran : program.execLine index state = (.error fault, after)) :
    runFrom program (limit + 1) index state visits = ⟨.faulted fault, after, visits⟩ := by
  simp [runFrom, inside, ran]

/-- A run goes on from the index that a line gives. -/
theorem runFrom_next (inside : index < program.length)
    (ran : program.execLine index state = (.ok next, after)) (goesOn : next ≠ -1) :
    runFrom program (limit + 1) index state visits =
      runFrom program limit next after
        (⟨index, next, after.store, after.returns⟩ :: visits) := by
  rw [runFrom]
  simp [inside, ran, goesOn]

/-- A run that ends within a limit is the same under every greater one. -/
theorem runFrom_limit {more : Nat} (enough : limit ≤ more)
    (ends : (runFrom program limit index state visits).ending ≠ .unfinished) :
    runFrom program more index state visits = runFrom program limit index state visits := by
  fun_induction runFrom program limit index state visits generalizing more with
  | case1 => exact absurd rfl ends
  | case2 index state visits inside limit after ran =>
    obtain ⟨more, rfl⟩ := Nat.exists_eq_add_one.mpr (Nat.zero_lt_of_lt enough)
    exact runFrom_ended inside ran
  | case3 index state visits inside limit next after ran visited goesOn =>
    rename_i inductionHypothesis
    obtain ⟨more, rfl⟩ := Nat.exists_eq_add_one.mpr (Nat.zero_lt_of_lt enough)
    rw [runFrom_next inside ran goesOn]
    exact inductionHypothesis (Nat.le_of_succ_le_succ enough) ends
  | case4 index state visits inside limit fault after ran =>
    obtain ⟨more, rfl⟩ := Nat.exists_eq_add_one.mpr (Nat.zero_lt_of_lt enough)
    exact runFrom_faulted inside ran
  | case5 limit index state visits past => exact runFrom_past past

end Rounds

/-- The lines visited before a run change nothing but its list of visits. -/
theorem runFrom_visits (program : Program) (limit : Nat) (index : Int) (state : State)
    (visits : List Visit) :
    runFrom program limit index state visits =
      ⟨(runFrom program limit index state []).ending, (runFrom program limit index state []).state,
        (runFrom program limit index state []).visits ++ visits⟩ := by
  induction limit generalizing index state visits with
  | zero =>
    unfold runFrom
    split <;> rfl
  | succ limit inductionHypothesis =>
    unfold runFrom
    split
    · cases executed : program.execLine index state with
      | mk result after =>
        cases result with
        | error fault => rfl
        | ok next =>
          dsimp only
          split
          · rfl
          · rw [inductionHypothesis next after (_ :: visits), inductionHypothesis next after [_]]
            simp
    · rfl

/-- Runs a program from its first line. -/
def run (program : Program) (limit : Nat) (state : State) : Report :=
  runFrom program limit 0 state []

end LineBasic.Machine
