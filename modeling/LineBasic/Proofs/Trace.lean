import LineBasic.Machine.Run

/-!
# Traces

A run executes lines, and a line executes statements. The trace of a run lists the lines
in the order in which they were executed, the one with the fault included, and the trace
of a line lists its statements up to the one that ended it. Each entry keeps the state in
which it began; what it gave and the state that it left follow from that.

Traces say no more than the machine does: a line gives what its last statement decides, a
run ends as its last line does, and every state of a run is one in which a statement began
or ended. What every statement preserves therefore holds throughout a run, and so does
what every line hands over to the next.
-/

namespace LineBasic.Machine

variable {program : Program}

/-! ## Statements -/

/-- A statement executed in a state, as part of the line at an index. -/
structure Execution (program : Program) where
  index : Int
  stmt : Stmt
  before : State

/-- What the statement gave: a fault, the index of the line to come, or neither. -/
def Execution.result (execution : Execution program) : Except Fault (Option Int) :=
  (execution.stmt.exec program execution.index execution.before).1

/-- The state that the statement left. -/
def Execution.after (execution : Execution program) : State :=
  (execution.stmt.exec program execution.index execution.before).2

/-- The statements of a line that are executed. -/
def executions (program : Program) (index : Int) : List Stmt → State → List (Execution program)
  | [], _ => []
  | stmt :: rest, before =>
    let first : Execution program := ⟨index, stmt, before⟩
    match first.result with
    | .ok none => first :: executions program index rest first.after
    | _ => [first]

/-- A statement that lets the line go on is followed by the others. -/
theorem executions_next {index : Int} {stmt : Stmt} {rest : List Stmt} {before : State}
    (passes : (⟨index, stmt, before⟩ : Execution program).result = .ok none) :
    executions program index (stmt :: rest) before =
      ⟨index, stmt, before⟩ ::
        executions program index rest (⟨index, stmt, before⟩ : Execution program).after := by
  simp only [executions, passes]

/-- Nothing follows a statement that ends the line. -/
theorem executions_last {index : Int} {stmt : Stmt} {rest : List Stmt} {before : State}
    (ends : (⟨index, stmt, before⟩ : Execution program).result ≠ .ok none) :
    executions program index (stmt :: rest) before = [⟨index, stmt, before⟩] := by
  simp only [executions]

/-- A line found at an index is a line of the program. -/
theorem mem_of_lineAt? {index : Int} {line : Line} (found : program.lineAt? index = some line) :
    line ∈ program := by
  rw [Program.lineAt?] at found
  split at found
  · exact List.mem_of_getElem? found
  · split at found
    · exact List.mem_of_getElem? found
    · cases found

/-- A statement that ends its line is the last one executed of it. -/
theorem executions_ended {index : Int} {stmts : List Stmt} {state : State}
    {done rest : List (Execution program)} {last : Execution program}
    (split : executions program index stmts state = done ++ last :: rest)
    (ends : last.result ≠ .ok none) : rest = [] := by
  induction stmts generalizing state done with
  | nil => simp [executions] at split
  | cons stmt others inductionHypothesis =>
    by_cases passes : (⟨index, stmt, state⟩ : Execution program).result = .ok none
    · rw [executions_next passes] at split
      cases done with
      | nil =>
        obtain ⟨rfl, -⟩ := List.cons.inj split
        exact absurd passes ends
      | cons first done => exact inductionHypothesis (List.cons.inj split).2
    · rw [executions_last passes] at split
      cases done with
      | nil => exact (List.cons.inj split).2.symm
      | cons first done => simp at split

/-- What is executed of a line are statements of the line. -/
theorem mem_executions {index : Int} {stmts : List Stmt} {state : State}
    {execution : Execution program} (member : execution ∈ executions program index stmts state) :
    execution.index = index ∧ execution.stmt ∈ stmts := by
  induction stmts generalizing state with
  | nil => cases member
  | cons stmt rest inductionHypothesis =>
    by_cases passes : (⟨index, stmt, state⟩ : Execution program).result = .ok none
    · rw [executions_next passes] at member
      rcases List.mem_cons.mp member with rfl | member
      · exact ⟨rfl, List.mem_cons_self⟩
      · obtain ⟨sameIndex, among⟩ := inductionHypothesis member
        exact ⟨sameIndex, .tail _ among⟩
    · rw [executions_last passes] at member
      obtain rfl := List.mem_singleton.mp member
      exact ⟨rfl, List.mem_cons_self⟩

/-- What a line gives, decided by the last statement executed. A line that no statement
ends is followed by the next one. -/
def lineResult (index : Int) : Option (Execution program) → Except Fault Int
  | none => .ok (index + 1)
  | some last =>
    match last.result with
    | .ok none => .ok (index + 1)
    | .ok (some next) => .ok next
    | .error fault => .error fault

/-- The state after executions that begin in a state. -/
def stateAfter (start : State) (done : List (Execution program)) : State :=
  (done.getLast?.map Execution.after).getD start

/-- The executions lead from one state to another. -/
inductive Leads : State → List (Execution program) → State → Prop where
  | refl (state : State) : Leads state [] state
  | cons (first : Execution program) {others : List (Execution program)} {finish : State}
      (further : Leads first.after others finish) : Leads first.before (first :: others) finish

namespace Leads

/-- Executions can be put one after another. -/
theorem trans {start between finish : State} {first second : List (Execution program)}
    (leads : Leads start first between) (further : Leads between second finish) :
    Leads start (first ++ second) finish := by
  induction leads with
  | refl => exact further
  | cons execution _ inductionHypothesis => exact .cons execution (inductionHypothesis further)

/-- Executions can be cut anywhere. -/
theorem split {start finish : State} {first second : List (Execution program)}
    (leads : Leads start (first ++ second) finish) :
    ∃ between, Leads start first between ∧ Leads between second finish := by
  induction first generalizing start with
  | nil => exact ⟨start, .refl start, leads⟩
  | cons execution first inductionHypothesis =>
    cases leads with
    | cons _ further =>
      obtain ⟨between, left, right⟩ := inductionHypothesis further
      exact ⟨between, .cons execution left, right⟩

/-- The state after executions is the one that the last of them left. -/
theorem finish_eq {start finish : State} {done : List (Execution program)}
    (leads : Leads start done finish) : finish = stateAfter start done := by
  induction leads with
  | refl => rfl
  | @cons first others finish further inductionHypothesis =>
    rw [inductionHypothesis, stateAfter, stateAfter, List.getLast?_cons]
    cases others.getLast? with
    | none => rfl
    | some last => rfl

/-- Executions lead, up to each of them, to the state after it. -/
theorem upTo {start finish : State} {done trace : List (Execution program)}
    (leads : Leads start trace finish) (first : done <+: trace) :
    Leads start done (stateAfter start done) := by
  obtain ⟨rest, rfl⟩ := first
  obtain ⟨between, left, -⟩ := leads.split
  exact left.finish_eq ▸ left

/-- What every execution preserves holds wherever it held at the start. -/
theorem invariant {Holds : State → Prop} {start finish : State}
    {trace : List (Execution program)} (leads : Leads start trace finish) (begins : Holds start)
    (step : ∀ execution ∈ trace, Holds execution.before → Holds execution.after) :
    (∀ execution ∈ trace, Holds execution.before ∧ Holds execution.after) ∧ Holds finish := by
  induction leads with
  | refl => exact ⟨by simp, begins⟩
  | cons first _ inductionHypothesis =>
    have kept := step first List.mem_cons_self begins
    obtain ⟨others, ends⟩ := inductionHypothesis kept fun execution member =>
      step execution (.tail _ member)
    refine ⟨?_, ends⟩
    intro execution member
    rcases List.mem_cons.mp member with rfl | member
    · exact ⟨begins, kept⟩
    · exact others execution member

end Leads

/-- The executions of a line lead to the state that the line leaves, and the last of them
decides what it gives. -/
theorem execAll_executions (program : Program) (index : Int) (stmts : List Stmt) (state : State) :
    Leads state (executions program index stmts state) (execAll program index stmts state).2 ∧
      (execAll program index stmts state).1 =
        lineResult index (executions program index stmts state).getLast? := by
  induction stmts generalizing state with
  | nil => exact ⟨.refl state, rfl⟩
  | cons stmt rest inductionHypothesis =>
    let first : Execution program := ⟨index, stmt, state⟩
    have ran : stmt.exec program index state = (first.result, first.after) := rfl
    by_cases passes : first.result = .ok none
    · obtain ⟨leads, result⟩ := inductionHypothesis first.after
      rw [executions_next passes, execAll, ran, passes]
      refine ⟨.cons first leads, ?_⟩
      change (execAll program index rest first.after).1 = _
      rw [result]
      cases executions program index rest first.after with
      | nil => simp only [List.getLast?_nil, List.getLast?_singleton, lineResult, first, passes]
      | cons second others => rw [List.getLast?_cons_cons]
    · have ended : execAll program index (stmt :: rest) state =
          (lineResult index (some first), first.after) := by
        rw [execAll, ran, lineResult]
        cases gave : first.result with
        | error fault => rfl
        | ok next =>
          cases next with
          | none => exact absurd gave passes
          | some next => rfl
      rw [executions_last passes, ended]
      exact ⟨.cons first (.refl _), rfl⟩

/-! ## Lines -/

/-- A line executed in a state, given by its index. -/
structure LineRun (program : Program) where
  index : Int
  before : State

namespace LineRun

/-- What the line gave: a fault or the index of the line to come. -/
def result (run : LineRun program) : Except Fault Int := (program.execLine run.index run.before).1

/-- The state that the line left. -/
def after (run : LineRun program) : State := (program.execLine run.index run.before).2

/-- The statements executed. -/
def executions (run : LineRun program) : List (Execution program) :=
  match program.lineAt? run.index with
  | some line => Machine.executions program run.index line.statements run.before
  | none => []

/-- The visit that a report makes of the line, unless there was a fault. -/
def visit? (run : LineRun program) : Option Visit :=
  match run.result with
  | .ok next => some ⟨run.index, next, run.after.store, run.after.returns⟩
  | .error _ => none

/-- The statements executed lead to the state that the line left. -/
theorem leads (run : LineRun program) : Leads run.before run.executions run.after := by
  rw [executions, after, Program.execLine]
  cases program.lineAt? run.index with
  | some line => exact (execAll_executions _ _ _ _).1
  | none => exact .refl _

/-- The last statement executed decides what a line that exists gives. -/
theorem result_eq {run : LineRun program} {line : Line}
    (found : program.lineAt? run.index = some line) :
    run.result = lineResult run.index run.executions.getLast? := by
  rw [result, executions, Program.execLine, found]
  exact (execAll_executions _ _ _ _).2

/-- The statements executed are statements of the line. -/
theorem mem_executions {run : LineRun program} {execution : Execution program}
    (member : execution ∈ run.executions) :
    execution.index = run.index ∧
      ∃ line, program.lineAt? run.index = some line ∧ execution.stmt ∈ line.statements := by
  rw [executions] at member
  split at member
  · next line found =>
    obtain ⟨sameIndex, among⟩ := Machine.mem_executions member
    exact ⟨sameIndex, line, found, among⟩
  · cases member

end LineRun

/-! ## Runs -/

/-- The lines that a run executes from an index on. -/
def lineRuns (program : Program) : (limit : Nat) → Int → State → List (LineRun program)
  | limit, index, before =>
    if index < program.length then
      match limit with
      | 0 => []
      | limit + 1 =>
        let first : LineRun program := ⟨index, before⟩
        match first.result with
        | .ok next =>
          if next = -1 then [first] else first :: lineRuns program limit next first.after
        | .error _ => [first]
    else []

/-- The statements that a run executes. -/
def trace (program : Program) (limit : Nat) (state : State) : List (Execution program) :=
  (lineRuns program limit 0 state).flatMap LineRun.executions

/-- Every statement that a run executes is one of the program. -/
theorem stmt_of_mem_trace {limit : Nat} {state : State} {execution : Execution program}
    (member : execution ∈ trace program limit state) :
    ∃ line ∈ program, execution.stmt ∈ line.statements := by
  obtain ⟨run, -, executed⟩ := List.mem_flatMap.mp member
  obtain ⟨-, line, found, among⟩ := LineRun.mem_executions executed
  exact ⟨line, mem_of_lineAt? found, among⟩

/-- The report says what happened in the lines executed from a state on. -/
structure Report.Records (report : Report) (start : State) (runs : List (LineRun program)) :
    Prop where
  visits : report.visits.reverse = runs.filterMap LineRun.visit?
  leads : Leads start (runs.flatMap LineRun.executions) report.state
  faulted (fault : Fault) :
    report.ending = .faulted fault ↔ ∃ last ∈ runs.getLast?, last.result = .error fault

namespace Report.Records

/-- A run that executes no line has no fault. -/
theorem nil {ending : Ending} (state : State) (unharmed : ∀ fault, ending ≠ .faulted fault) :
    Records (⟨ending, state, []⟩ : Report) state ([] : List (LineRun program)) :=
  ⟨rfl, .refl state, fun fault => by simp [unharmed fault]⟩

/-- A line with a fault is the last. -/
theorem fault {run : LineRun program} {fault : Fault} (gave : run.result = .error fault) :
    Records (⟨.faulted fault, run.after, []⟩ : Report) run.before [run] := by
  refine ⟨?_, ?_, fun other => ?_⟩
  · simp [LineRun.visit?, gave]
  · simpa using run.leads
  · simp [gave]

/-- A line without a fault is followed by what the rest of the run does. -/
theorem cons {run : LineRun program} {runs : List (LineRun program)} {next : Int}
    {report : Report} (gave : run.result = .ok next) (records : report.Records run.after runs) :
    Records (⟨report.ending, report.state,
      report.visits ++ [⟨run.index, next, run.after.store, run.after.returns⟩]⟩ : Report)
      run.before (run :: runs) := by
  refine ⟨?_, ?_, fun fault => ?_⟩
  · simp [LineRun.visit?, gave, records.visits]
  · rw [List.flatMap_cons]
    exact run.leads.trans records.leads
  · refine (records.faulted fault).trans ?_
    rw [List.getLast?_cons]
    cases runs.getLast? with
    | none => simp [gave]
    | some last => simp

end Report.Records

/-- The report of a run records the lines that it executes. -/
theorem runFrom_records (program : Program) (limit : Nat) (index : Int) (state : State) :
    (runFrom program limit index state []).Records state (lineRuns program limit index state) := by
  induction limit generalizing index state with
  | zero =>
    unfold runFrom lineRuns
    split
    · exact .nil state (by simp)
    · exact .nil state (by simp)
  | succ limit inductionHypothesis =>
    unfold runFrom lineRuns
    by_cases inside : index < program.length
    · let first : LineRun program := ⟨index, state⟩
      have ran : program.execLine index state = (first.result, first.after) := rfl
      simp only [if_pos inside, ran]
      cases gave : first.result with
      | error fault => exact .fault gave
      | ok next =>
        by_cases ended : next = -1
        · simp only [if_pos ended]
          exact .cons gave (.nil first.after (by simp))
        · simp only [if_neg ended]
          rw [runFrom_visits]
          exact .cons gave (inductionHypothesis next first.after)
    · simp only [if_neg inside]
      exact .nil state (by simp)

/-- A run that executes a line begins with it. The line is the only one if it fails or gives the
sign of the end; otherwise the others, and how the run ends, are those of a run from the line
that it gave. -/
theorem lineRuns_eq_cons {limit : Nat} {index : Int} {state : State} {first : LineRun program}
    {others : List (LineRun program)}
    (split : lineRuns program limit index state = first :: others) :
    first = ⟨index, state⟩ ∧
      (others = [] ∧ (∀ next, first.result = .ok next → next = -1) ∨
        ∃ fewer next, first.result = .ok next ∧ others = lineRuns program fewer next first.after ∧
          (runFrom program limit index state []).ending =
            (runFrom program fewer next first.after []).ending) := by
  unfold lineRuns at split
  by_cases inside : index < program.length
  · rw [if_pos inside] at split
    cases limit with
    | zero => cases split
    | succ fewer =>
      dsimp only at split
      cases gave : (⟨index, state⟩ : LineRun program).result with
      | error fault =>
        simp only [gave, List.cons.injEq] at split
        obtain ⟨rfl, rfl⟩ := split
        exact ⟨rfl, .inl ⟨rfl, by simp [gave]⟩⟩
      | ok next =>
        rw [gave] at split
        dsimp only at split
        by_cases ended : next = -1
        · rw [if_pos ended] at split
          obtain ⟨rfl, rfl⟩ := List.cons.inj split
          exact ⟨rfl, .inl ⟨rfl, by simp [gave, ended]⟩⟩
        · rw [if_neg ended] at split
          obtain ⟨rfl, rfl⟩ := List.cons.inj split
          have ran : program.execLine index state =
              (.ok next, (⟨index, state⟩ : LineRun program).after) := Prod.ext gave rfl
          refine ⟨rfl, .inr ⟨fewer, next, gave, rfl, ?_⟩⟩
          rw [runFrom_next inside ran ended, runFrom_visits]
  · rw [if_neg inside] at split
    cases split

/-- A line hands over to the next one the index that it gave and the state that it left. -/
theorem lineRuns_next {limit : Nat} {index : Int} {state : State}
    {earlier later : List (LineRun program)} {run next : LineRun program}
    (split : lineRuns program limit index state = earlier ++ run :: next :: later) :
    run.result = .ok next.index ∧ next.before = run.after := by
  induction earlier generalizing limit index state with
  | nil =>
    obtain ⟨-, ⟨none, -⟩ | ⟨fewer, chosen, gave, others, -⟩⟩ := lineRuns_eq_cons split
    · cases none
    · obtain ⟨rfl, -⟩ := lineRuns_eq_cons others.symm
      exact ⟨gave, rfl⟩
  | cons first earlier inductionHypothesis =>
    obtain ⟨-, ⟨none, -⟩ | ⟨fewer, chosen, gave, others, -⟩⟩ := lineRuns_eq_cons split
    · simp at none
    · exact inductionHypothesis others.symm

/-- An execution stands in the trace of one of the lines. -/
theorem split_executions {runs : List (LineRun program)} {done rest : List (Execution program)}
    {execution : Execution program}
    (split : runs.flatMap LineRun.executions = done ++ execution :: rest) :
    ∃ earlier run later before after, runs = earlier ++ run :: later ∧
      run.executions = before ++ execution :: after ∧
      done = earlier.flatMap LineRun.executions ++ before := by
  induction runs generalizing done with
  | nil => simp at split
  | cons first runs inductionHypothesis =>
    rw [List.flatMap_cons, List.append_eq_append_iff] at split
    rcases split with ⟨further, rfl, among⟩ | ⟨part, inside, among⟩
    · obtain ⟨earlier, run, later, before, after, rfl, executed, rfl⟩ := inductionHypothesis among
      exact ⟨first :: earlier, run, later, before, after, rfl, executed, by simp⟩
    · cases part with
      | nil =>
        have next : runs.flatMap LineRun.executions = [] ++ execution :: rest := among.symm
        obtain ⟨earlier, run, later, before, after, rfl, executed, nothing⟩ :=
          inductionHypothesis next
        refine ⟨first :: earlier, run, later, before, after, rfl, executed, ?_⟩
        rw [List.flatMap_cons, inside, List.append_nil, List.append_assoc, ← nothing,
          List.append_nil]
      | cons found after =>
        obtain ⟨rfl, -⟩ := List.cons.inj among
        exact ⟨[], first, runs, done, after, rfl, inside, rfl⟩

/-- A statement that chooses the line to come is the last executed of its line, and the run
goes on with the line chosen. -/
theorem trace_chosen {limit : Nat} {state : State} {done rest : List (Execution program)}
    {last : Execution program} {next : Int}
    (split : trace program limit state = done ++ last :: rest)
    (chose : last.result = .ok (some next)) :
    ∃ earlier run later, lineRuns program limit 0 state = earlier ++ run :: later ∧
      done ++ [last] = (earlier ++ [run]).flatMap LineRun.executions ∧ run.result = .ok next ∧
      ∀ following ∈ later.head?, following.index = next := by
  obtain ⟨earlier, run, later, before, after, runs, executed, rfl⟩ := split_executions split
  have ends : last.result ≠ .ok none := by simp [chose]
  have member : last ∈ run.executions := by simp [executed]
  obtain ⟨-, line, found, -⟩ := LineRun.mem_executions member
  obtain rfl : after = [] := by
    rw [LineRun.executions, found] at executed
    exact executions_ended executed ends
  have gave : run.result = .ok next := by
    rw [LineRun.result_eq found, executed, List.getLast?_concat, lineResult, chose]
  refine ⟨earlier, run, later, runs, ?_, gave, ?_⟩
  · rw [List.flatMap_append, List.flatMap_singleton, executed, List.append_assoc]
  · intro following isNext
    obtain ⟨others, rfl⟩ := List.head?_eq_some_iff.mp isNext
    have handed := (lineRuns_next runs).1
    rw [gave] at handed
    exact (Except.ok.inj handed).symm

/-- What holds where a run begins, and what every line hands over to the next, holds where
each line begins; and no line beyond the last is executed. -/
theorem lineRuns_invariant {Ready : Int → State → Prop} {limit : Nat} {index : Int} {state : State}
    (begins : Ready index state)
    (step : ∀ run : LineRun program, run.index < program.length → Ready run.index run.before →
      ∀ next, run.result = .ok next → next ≠ -1 → Ready next run.after) :
    ∀ run ∈ lineRuns program limit index state,
      run.index < program.length ∧ Ready run.index run.before := by
  induction limit generalizing index state with
  | zero =>
    unfold lineRuns
    split <;> simp
  | succ limit inductionHypothesis =>
    unfold lineRuns
    by_cases inside : index < program.length
    · let first : LineRun program := ⟨index, state⟩
      simp only [if_pos inside]
      split
      · next next gave =>
        split
        · simpa using ⟨inside, begins⟩
        · next goesOn =>
          intro run member
          rcases List.mem_cons.mp member with rfl | member
          · exact ⟨inside, begins⟩
          · exact inductionHypothesis (step first inside begins next gave goesOn) run member
      · simpa using ⟨inside, begins⟩
    · simp [if_neg inside]

end LineBasic.Machine
