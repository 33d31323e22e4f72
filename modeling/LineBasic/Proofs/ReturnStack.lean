import LineBasic.Proofs.Trace

/-!
# Line indexes and returns

One integer serves as the index of a line, as the sign that a program has ended, and as
the place to which a subroutine returns, which may lie one past the last line. These uses
do not meet: jumps lead to lines, a return leads behind a line that holds a call, and only
the end statement gives the sign of the end.

What a statement does to the course of a run is said once, for all statements; the
invariant follows from it case by case. A call notes its return before it looks for its
target, so it counts as executed even if there is no such line.
-/

namespace LineBasic

open Machine

/-! ## Looking up lines -/

namespace Program

/-- The last line with a number stands at an index. -/
structure LastAt (program : Program) (number : Value) (index : Nat) : Prop where
  numbered : ∃ line, program[index]? = some line ∧ line.number.same number = true
  last : ∀ (other : Nat) (line : Line), program[other]? = some line →
    line.number.same number = true → other ≤ index

/-- No index is found for a number that no line has. -/
theorem indexOf?_eq_none {program : Program} {number : Value}
    (missing : program.indexOf? number = none) :
    ∀ line ∈ program, ¬ line.number.same number = true := by
  induction program with
  | nil => simp
  | cons first rest inductionHypothesis =>
    rw [indexOf?] at missing
    cases later : indexOf? number rest with
    | some position => simp [later] at missing
    | none =>
      intro line member
      rcases List.mem_cons.mp member with rfl | member
      · simpa [later] using missing
      · exact inductionHypothesis later line member

/-- The index found for a number is that of the last line with the number. -/
theorem indexOf?_lastAt {program : Program} {number : Value} {index : Nat}
    (found : program.indexOf? number = some index) : program.LastAt number index := by
  induction program generalizing index with
  | nil => cases found
  | cons first rest inductionHypothesis =>
    rw [indexOf?] at found
    cases later : indexOf? number rest with
    | some position =>
      simp only [later, Option.some.injEq] at found
      subst found
      obtain ⟨numbered, last⟩ := inductionHypothesis later
      refine ⟨numbered, ?_⟩
      intro other line stands same
      cases other with
      | zero => exact Nat.zero_le _
      | succ other => exact Nat.succ_le_succ (last other line stands same)
    | none =>
      by_cases here : first.number.same number = true
      · simp only [later, if_pos here, Option.some.injEq] at found
        subst found
        refine ⟨⟨first, rfl, here⟩, ?_⟩
        intro other line stands same
        cases other with
        | zero => exact Nat.le_refl _
        | succ other =>
          exact absurd same (indexOf?_eq_none later line (List.mem_of_getElem? stands))
      · simp [later, here] at found

/-- The last line with a number is a line of the program. -/
theorem LastAt.lt_length {program : Program} {number : Value} {index : Nat}
    (lastAt : program.LastAt number index) : index < program.length := by
  obtain ⟨line, stands, -⟩ := lastAt.numbered
  exact (List.getElem?_eq_some_iff.mp stands).1

/-- A line of the program is found at each index within it. -/
theorem lineAt?_within {program : Program} {index : Int} (notNegative : 0 ≤ index)
    (inside : index < program.length) :
    ∃ line, program.lineAt? index = some line ∧ program[index.toNat]? = some line := by
  have bound : index.toNat < program.length := by omega
  have stands : program[index.toNat]? = some program[index.toNat] :=
    List.getElem?_eq_getElem bound
  exact ⟨_, by rw [lineAt?, if_pos notNegative, stands], stands⟩

/-- Behind the line to which a return leads back stands a call. -/
structure IsReturn (program : Program) (back : Int) : Prop where
  positive : 1 ≤ back
  within : back ≤ program.length
  called : ∃ line target, program[(back - 1).toNat]? = some line ∧ .gosub target ∈ line.statements

end Program

/-! ## The course of a run -/

/-- The line that a statement may jump to, and the way it does. -/
def Stmt.jump? : Stmt → Option (Jump × Value)
  | .branch _ target => some (.branch, target)
  | .goto target => some (.goto, target)
  | .gosub target => some (.gosub, target)
  | _ => none

/-- A statement is a subroutine call. -/
def Stmt.isCall : Stmt → Bool
  | .gosub _ => true
  | _ => false

namespace Machine

/-- What a statement of the line at an index gives, and which returns it leaves of those it
finds. -/
inductive Control (program : Program) (index : Int) :
    Stmt → List Int → Except Fault (Option Int) → List Int → Prop where
  /-- The line goes on. -/
  | passes {stmt : Stmt} (returns : List Int) (noCall : stmt.isCall = false)
      (noReturn : stmt ≠ .ret) (noEnd : stmt ≠ .stop) :
      Control program index stmt returns (.ok none) returns
  /-- The run stops with a fault. -/
  | fails {stmt : Stmt} (returns : List Int) (fault : Fault) (noCall : stmt.isCall = false)
      (noEnd : stmt ≠ .stop) : Control program index stmt returns (.error fault) returns
  /-- A branch or a plain jump leads to a line. -/
  | jumps {stmt : Stmt} {jump : Jump} {target : Value} {position : Nat} (returns : List Int)
      (isJump : stmt.jump? = some (jump, target)) (noCall : stmt.isCall = false)
      (found : program.indexOf? target = some position) :
      Control program index stmt returns (.ok (some position)) returns
  /-- A call leads to a line and notes where to return. -/
  | calls {target : Value} {position : Nat} (returns : List Int)
      (found : program.indexOf? target = some position) :
      Control program index (.gosub target) returns (.ok (some position)) ((index + 1) :: returns)
  /-- A call with no such line has noted where to return. -/
  | missesCall (target : Value) (returns : List Int) (fault : Fault) :
      Control program index (.gosub target) returns (.error fault) ((index + 1) :: returns)
  /-- A return takes the latest note. -/
  | comesBack (back : Int) (returns : List Int) :
      Control program index .ret (back :: returns) (.ok (some back)) returns
  /-- The program ends. -/
  | ends (returns : List Int) : Control program index .stop returns (.ok (some (-1))) returns

/-- Every execution of a statement is one of these. -/
theorem exec_control (program : Program) (index : Int) (stmt : Stmt) (state : State) :
    Control program index stmt state.returns (stmt.exec program index state).1
      (stmt.exec program index state).2.returns := by
  cases stmt with
  | assign name expr =>
    rw [Stmt.exec]
    cases expr.eval state.store with
    | ok value => exact .passes _ rfl (by simp) (by simp)
    | error fault => exact .fails _ fault rfl (by simp)
  | print items =>
    rw [Stmt.exec]
    cases printedLine state.store items with
    | ok text => exact .passes _ rfl (by simp) (by simp)
    | error fault => exact .fails _ fault rfl (by simp)
  | input name =>
    rw [Stmt.exec]
    cases name.shown? with
    | none => exact .fails _ _ rfl (by simp)
    | some shown =>
      dsimp only
      rcases (state.emit (.prompt shown)).feed.next with ⟨reply, feed⟩
      cases reply with
      | ok n => exact .passes _ rfl (by simp) (by simp)
      | error fault => exact .fails _ fault rfl (by simp)
  | branch condition target =>
    rw [Stmt.exec]
    cases condition.eval state.store with
    | error fault => exact .fails _ fault rfl (by simp)
    | ok holds =>
      cases holds with
      | false => exact .passes _ rfl (by simp) (by simp)
      | true =>
        dsimp only
        rw [Program.destination]
        cases found : program.indexOf? target with
        | some position => exact .jumps _ rfl rfl found
        | none => exact .fails _ _ rfl (by simp)
  | goto target =>
    rw [Stmt.exec, Program.destination]
    cases found : program.indexOf? target with
    | some position => exact .jumps _ rfl rfl found
    | none => exact .fails _ _ rfl (by simp)
  | gosub target =>
    rw [Stmt.exec, Program.destination]
    cases found : program.indexOf? target with
    | some position => exact .calls _ found
    | none => exact .missesCall _ _ _
  | ret =>
    rw [Stmt.exec]
    cases noted : state.returns with
    | nil =>
      dsimp only
      rw [noted]
      exact .fails [] .returnWithoutGosub rfl (by simp)
    | cons back rest => exact .comesBack back rest
  | stop => exact .ends _
  | remark => exact .passes _ rfl (by simp) (by simp)
  | faulty fault => exact .fails _ fault rfl (by simp)

namespace Control

variable {program : Program} {index : Int} {stmt : Stmt} {returns left : List Int}
  {result : Except Fault (Option Int)}

/-- Returns stay where they should lead, since a call notes the line behind its own. -/
theorem keeps_returns (control : Control program index stmt returns result left) {line : Line}
    (notNegative : 0 ≤ index) (stands : program[index.toNat]? = some line)
    (among : stmt ∈ line.statements) (sound : ∀ back ∈ returns, program.IsReturn back) :
    ∀ back ∈ left, program.IsReturn back := by
  have noted {target : Value} (isCall : .gosub target ∈ line.statements) :
      ∀ back ∈ (index + 1) :: returns, program.IsReturn back := by
    have bound := (List.getElem?_eq_some_iff.mp stands).1
    intro back member
    rcases List.mem_cons.mp member with rfl | member
    · have here : (index + 1 - 1).toNat = index.toNat := by omega
      exact ⟨by omega, by omega, line, target, here ▸ stands, isCall⟩
    · exact sound back member
  cases control with
  | passes | fails | jumps | ends => exact sound
  | calls => exact noted among
  | missesCall => exact noted among
  | comesBack back => exact fun other member => sound other (.tail _ member)

/-- Only the end gives the sign of the end; every other index lies within the program or
just behind it. -/
theorem next_within {next : Int}
    (control : Control program index stmt returns (.ok (some next)) left)
    (sound : ∀ back ∈ returns, program.IsReturn back) :
    (next = -1 ∧ stmt = .stop) ∨ (0 ≤ next ∧ next ≤ program.length ∧ stmt ≠ .stop) := by
  have behind {target : Value} {position : Nat} (found : program.indexOf? target = some position) :
      (0 : Int) ≤ position ∧ (position : Int) ≤ program.length := by
    have bound := (Program.indexOf?_lastAt found).lt_length
    omega
  cases control with
  | jumps _ isJump noCall found =>
    refine .inr ⟨(behind found).1, (behind found).2, ?_⟩
    rintro rfl
    cases isJump
  | calls _ found => exact .inr ⟨(behind found).1, (behind found).2, by simp⟩
  | comesBack =>
    obtain ⟨positive, within, -⟩ := sound next List.mem_cons_self
    exact .inr ⟨by omega, within, by simp⟩
  | ends => exact .inl ⟨rfl, rfl⟩

/-- A statement that lets the line go on is not the end. -/
theorem goesOn_noEnd (control : Control program index stmt returns (.ok none) left) :
    stmt ≠ .stop := by
  cases control with
  | passes _ _ _ noEnd => exact noEnd

/-- A jump that leads anywhere leads to the last line with its number. -/
theorem jump_lastAt {next : Int} {jump : Jump} {target : Value}
    (control : Control program index stmt returns (.ok (some next)) left)
    (isJump : stmt.jump? = some (jump, target)) :
    ∃ position : Nat, next = position ∧ program.LastAt target position := by
  cases control with
  | jumps _ alsoJump _ found =>
    rw [isJump] at alsoJump
    cases alsoJump
    exact ⟨_, rfl, Program.indexOf?_lastAt found⟩
  | calls _ found =>
    cases isJump
    exact ⟨_, rfl, Program.indexOf?_lastAt found⟩
  | comesBack => cases isJump
  | ends => cases isJump

/-- A call adds one return, and a return that succeeds takes one away. -/
theorem balance (control : Control program index stmt returns result left) :
    left.length + (if (decide (stmt = .ret) && result.isOk) = true then 1 else 0) =
      returns.length + (if stmt.isCall = true then 1 else 0) := by
  cases control with
  | passes _ noCall noReturn => simp [noCall, noReturn]
  | fails _ _ noCall => simp [noCall, Except.isOk, Except.toBool]
  | jumps _ isJump noCall =>
    have noReturn : stmt ≠ .ret := by
      rintro rfl
      cases isJump
    simp [noCall, noReturn]
  | calls => simp [Stmt.isCall]
  | missesCall => simp [Stmt.isCall]
  | comesBack => simp [Stmt.isCall, Except.isOk, Except.toBool]
  | ends => simp [Stmt.isCall]

end Control

/-! ## Lines and runs -/

variable {program : Program}

/-- What an execution gives and which returns it leaves. -/
theorem Execution.control (execution : Execution program) :
    Control program execution.index execution.stmt execution.before.returns execution.result
      execution.after.returns :=
  exec_control program execution.index execution.stmt execution.before

/-- All returns lead behind a line with a call. -/
def ReturnsSound (program : Program) (state : State) : Prop :=
  ∀ back ∈ state.returns, program.IsReturn back

/-- The machine may begin with the line at an index. -/
structure Ready (program : Program) (index : Int) (state : State) : Prop where
  notNegative : 0 ≤ index
  returns : ReturnsSound program state

namespace LineRun

variable {run : LineRun program}

/-- Throughout a line all returns lead behind a line with a call. -/
theorem returns_sound (inside : run.index < program.length)
    (ready : Ready program run.index run.before) :
    (∀ execution ∈ run.executions,
      ReturnsSound program execution.before ∧ ReturnsSound program execution.after) ∧
      ReturnsSound program run.after := by
  refine run.leads.invariant ready.returns ?_
  intro execution member sound
  obtain ⟨sameIndex, line, found, among⟩ := mem_executions member
  obtain ⟨there, alsoFound, stands⟩ := Program.lineAt?_within ready.notNegative inside
  obtain rfl : line = there := Option.some.inj (found.symm.trans alsoFound)
  rw [← sameIndex] at stands
  exact execution.control.keeps_returns (sameIndex ▸ ready.notNegative) stands among sound

/-- A line gives the sign of the end exactly if the end was its last statement, and every
other index lies within the program or just behind it. -/
theorem next_within (inside : run.index < program.length)
    (ready : Ready program run.index run.before) {next : Int} (gave : run.result = .ok next) :
    (next = -1 ↔ ∃ last ∈ run.executions.getLast?, last.stmt = .stop) ∧
      (next ≠ -1 → 0 ≤ next ∧ next ≤ program.length) := by
  obtain ⟨line, found, -⟩ := Program.lineAt?_within ready.notNegative inside
  have notNegative := ready.notNegative
  rw [result_eq found] at gave
  cases ended : run.executions.getLast? with
  | none =>
    rw [ended] at gave
    obtain rfl : run.index + 1 = next := Except.ok.inj gave
    exact ⟨⟨fun isEnd => by omega, fun ⟨_, isLast, _⟩ => by cases isLast⟩, fun _ => by omega⟩
  | some last =>
    have member : last ∈ run.executions := List.mem_of_getLast? ended
    have control := last.control
    have sound := ((returns_sound inside ready).1 last member).1
    rw [ended, lineResult] at gave
    simp only [Option.mem_def, Option.some.injEq, exists_eq_left']
    cases decided : last.result with
    | error fault => simp [decided] at gave
    | ok choice =>
      rw [decided] at control
      cases choice with
      | some chosen =>
        simp only [decided, Except.ok.injEq] at gave
        subst gave
        rcases control.next_within sound with ⟨isEnd, stops⟩ | ⟨low, high, other⟩
        · simp [isEnd, stops]
        · refine ⟨⟨fun isEnd => by omega, fun stops => absurd stops other⟩, fun _ => ⟨low, high⟩⟩
      | none =>
        simp only [decided, Except.ok.injEq] at gave
        subst gave
        have other := control.goesOn_noEnd
        refine ⟨⟨fun isEnd => by omega, fun stops => absurd stops other⟩, fun _ => ?_⟩
        omega

end LineRun

/-- The machine may begin with the first line when there are no returns. -/
theorem Ready.initial (program : Program) (feed : Feed) : Ready program 0 (.initial feed) :=
  ⟨Int.le_refl 0, by simp [ReturnsSound, State.initial]⟩

/-- After a line the machine may go on with the line that it gave, which lies within the
program or just behind it. -/
theorem Ready.next {index next : Int} {state after : State} (ready : Ready program index state)
    (inside : index < program.length) (ran : program.execLine index state = (.ok next, after))
    (goesOn : next ≠ -1) : Ready program next after ∧ next ≤ program.length := by
  let run : LineRun program := ⟨index, state⟩
  have gave : run.result = .ok next := congrArg Prod.fst ran
  have left : run.after = after := congrArg Prod.snd ran
  have within := (run.next_within inside ready gave).2 goesOn
  exact ⟨⟨within.1, left ▸ (run.returns_sound inside ready).2⟩, within.2⟩

/-- Every line of a run begins within the program, with returns that lead behind a line with
a call. -/
theorem lineRuns_ready (program : Program) (limit : Nat) (feed : Feed) :
    ∀ run ∈ lineRuns program limit 0 (.initial feed),
      run.index < program.length ∧ Ready program run.index run.before := by
  refine lineRuns_invariant (.initial program feed) ?_
  intro run inside ready next gave goesOn
  exact (ready.next inside (Prod.ext gave rfl) goesOn).1

/-- A run that stops with a fault has it from the last statement executed, never for want of
a line. -/
theorem run_faulted {program : Program} {limit : Nat} {feed : Feed} {fault : Fault}
    (faulted : (run program limit (.initial feed)).ending = .faulted fault) :
    ∃ last ∈ (trace program limit (.initial feed)).getLast?, last.result = .error fault := by
  have records := runFrom_records program limit 0 (.initial feed)
  obtain ⟨run, isLast, gave⟩ := (records.faulted fault).mp faulted
  obtain ⟨inside, ready⟩ := lineRuns_ready program limit feed run (List.mem_of_getLast? isLast)
  obtain ⟨line, found, -⟩ := Program.lineAt?_within ready.notNegative inside
  rw [LineRun.result_eq found] at gave
  cases ended : run.executions.getLast? with
  | none =>
    rw [ended] at gave
    cases gave
  | some last =>
    refine ⟨last, ?_, ?_⟩
    · obtain ⟨earlier, split⟩ := List.getLast?_eq_some_iff.mp isLast
      rw [trace, split, List.flatMap_append, List.flatMap_singleton, List.getLast?_append, ended]
      rfl
    · rw [ended, lineResult] at gave
      cases decided : last.result with
      | error cause => simpa [decided] using gave
      | ok next => cases next <;> simp [decided] at gave

/-- A subroutine call was executed, whether or not its line exists. -/
def Execution.isCall (execution : Execution program) : Bool := execution.stmt.isCall

/-- A return was executed and found where to return. -/
def Execution.isReturn (execution : Execution program) : Bool :=
  decide (execution.stmt = .ret) && execution.result.isOk

/-- Along executions the returns are as many more as calls exceed returns. -/
theorem Leads.balance {start finish : State} {done : List (Execution program)}
    (leads : Leads start done finish) :
    finish.returns.length + done.countP Execution.isReturn =
      start.returns.length + done.countP Execution.isCall := by
  induction leads with
  | refl => rfl
  | cons first further inductionHypothesis =>
    have step : first.after.returns.length + (if first.isReturn = true then 1 else 0) =
        first.before.returns.length + (if first.isCall = true then 1 else 0) :=
      first.control.balance
    rw [List.countP_cons, List.countP_cons]
    omega

/-- Throughout a run all returns lead behind a line with a call. -/
theorem trace_returns (program : Program) (limit : Nat) (feed : Feed)
    {done : List (Execution program)} (first : done <+: trace program limit (.initial feed)) :
    ReturnsSound program (stateAfter (.initial feed) done) := by
  have leads := ((runFrom_records program limit 0 (.initial feed)).leads.upTo first)
  have begins : ReturnsSound program (.initial feed) := by simp [ReturnsSound, State.initial]
  refine (leads.invariant begins ?_).2
  intro execution among _
  obtain ⟨run, member, executed⟩ := List.mem_flatMap.mp (first.subset among)
  obtain ⟨inside, ready⟩ := lineRuns_ready program limit feed run member
  exact ((LineRun.returns_sound inside ready).1 execution executed).2

/-- Indexes and returns throughout a run. Every line executed lies within the program. The
sign of the end is given by the end statement and by nothing else, and every other index
that a line gives lies within the program or just behind it. In every state that the run
passes through, the returns lead behind lines with calls, and there are as many of them as
calls were executed more than returns. A branch or jump that leads anywhere leads to the
last line with its number.

Each statement decides in one of a few ways what becomes of the returns and of the line to come.
From these it follows, line by line, that a line begins at an index within the program with returns
that lead behind calls, and statement by statement, that calls and returns account for the number of
the returns. -/
theorem run_indexes_returns (program : Program) (limit : Nat) (feed : Feed) :
    let start := State.initial feed
    let runs := lineRuns program limit 0 start
    (run program limit start).Records start runs ∧
    (∀ run ∈ runs, 0 ≤ run.index ∧ run.index < program.length ∧
      ∀ next, run.result = .ok next →
        (next = -1 ↔ ∃ last ∈ run.executions.getLast?, last.stmt = .stop) ∧
        (next ≠ -1 → 0 ≤ next ∧ next ≤ program.length)) ∧
    (∀ done, done <+: trace program limit start →
      (∀ back ∈ (stateAfter start done).returns, program.IsReturn back) ∧
      ((stateAfter start done).returns.length : Int) =
        done.countP Execution.isCall - done.countP Execution.isReturn) ∧
    ∀ execution ∈ trace program limit start, ∀ jump target next,
      execution.stmt.jump? = some (jump, target) → execution.result = .ok (some next) →
        ∃ position : Nat, next = position ∧ program.LastAt target position := by
  intro start runs
  have records := runFrom_records program limit 0 start
  refine ⟨records, ?_, ?_, ?_⟩
  · intro run member
    obtain ⟨inside, ready⟩ := lineRuns_ready program limit feed run member
    exact ⟨ready.notNegative, inside, fun next gave => LineRun.next_within inside ready gave⟩
  · intro done first
    refine ⟨trace_returns program limit feed first, ?_⟩
    have balance := (records.leads.upTo first).balance
    have none : start.returns.length = 0 := rfl
    omega
  · intro execution _ jump target next isJump gave
    have control := execution.control
    rw [gave] at control
    exact control.jump_lastAt isJump

/-- The call leads to the later of two lines with one number, and the return to the earlier,
which stands behind the call. -/
example : (trace [⟨.number 10, [.gosub (.number 20)]⟩, ⟨.number 20, [.stop]⟩,
      ⟨.number 20, [.ret]⟩] 5 (.initial ⟨[], .endOfInput⟩)).map
        (fun execution => (execution.index, execution.after.returns)) =
    [(0, [1]), (2, []), (1, [])] := by
  decide

end Machine

end LineBasic
