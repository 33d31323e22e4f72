import LineBasic.Source
import LineBasic.Proofs.SplitLines
import LineBasic.Proofs.Subroutines
import Mathlib.Tactic.Common

/-!
# Where a subroutine returns to

A call notes a line, not a statement. Its return therefore leads to the first statement of the
line behind that of the call, whatever stands behind the call on its own line. That is the
place behind the call exactly if the call is the last statement of its line. What stands
behind a call on the same line is never executed: the call always ends the line, and no jump
leads into the middle of one.

To say this, the statements that a run executes are listed with their places, each the index
of a line and a position in it.
-/

namespace LineBasic

/-- The place of a statement: the index of its line and its position there. -/
structure Place where
  index : Int
  position : Nat
deriving DecidableEq, Repr

/-- The statement at a place. -/
def Program.stmtAt? (program : Program) (place : Place) : Option Stmt :=
  (program.lineAt? place.index).bind fun line => line.statements[place.position]?

/-- The place behind another: that of the next statement of the line, or else of the first
statement of the next line. -/
def Place.behind (program : Program) (place : Place) : Place :=
  if (program.stmtAt? ⟨place.index, place.position + 1⟩).isSome then
    ⟨place.index, place.position + 1⟩
  else ⟨place.index + 1, 0⟩

/-- The first statement of the next line stands behind another exactly if that is the last of
its line. -/
theorem Place.next_eq_behind_iff (program : Program) (place : Place) :
    ⟨place.index + 1, 0⟩ = place.behind program ↔
      program.stmtAt? ⟨place.index, place.position + 1⟩ = none := by
  rw [behind]
  cases program.stmtAt? ⟨place.index, place.position + 1⟩ with
  | none => simp
  | some stmt => simp

namespace Machine

variable {program : Program}

/-! ## Executions and their places -/

/-- The statements executed of a line, each with its place. -/
def LineRun.placed (run : LineRun program) : List (Place × Execution program) :=
  run.executions.zipIdx.map fun (execution, position) => (⟨run.index, position⟩, execution)

/-- The statements that a run executes, each with its place. -/
def placedTrace (program : Program) (limit : Nat) (state : State) :
    List (Place × Execution program) :=
  (lineRuns program limit 0 state).flatMap LineRun.placed

/-- Without their places, the statements of lines are those executed. -/
theorem executions_of_placed (runs : List (LineRun program)) :
    (runs.flatMap LineRun.placed).map Prod.snd = runs.flatMap LineRun.executions := by
  rw [List.map_flatMap]
  congr 1
  funext run
  rw [LineRun.placed, List.map_map]
  exact List.zipIdx_map_fst 0 run.executions

/-- A statement that lets the line go on is no call. -/
theorem Control.goesOn_noCall {index : Int} {stmt : Stmt} {returns left : List Int}
    (control : Control program index stmt returns (.ok none) left) : stmt.isCall = false := by
  cases control with
  | passes _ noCall => exact noCall

/-- Statements of a line are executed from the first on, up to one that ends the line; so none
is executed behind a call. -/
theorem executions_at {index : Int} {stmts : List Stmt} {state : State} {position : Nat}
    {execution : Execution program}
    (stands : (executions program index stmts state)[position]? = some execution) :
    stmts[position]? = some execution.stmt ∧
      ∀ earlier < position, ∀ target, stmts[earlier]? ≠ some (.gosub target) := by
  induction stmts generalizing state position with
  | nil => simp [executions] at stands
  | cons stmt rest inductionHypothesis =>
    let first : Execution program := ⟨index, stmt, state⟩
    by_cases passes : first.result = .ok none
    · rw [executions_next passes] at stands
      cases position with
      | zero =>
        cases stands
        exact ⟨rfl, fun _ less => absurd less (Nat.not_lt_zero _)⟩
      | succ position =>
        obtain ⟨same, before⟩ := inductionHypothesis stands
        refine ⟨same, ?_⟩
        intro earlier less target isCall
        cases earlier with
        | zero =>
          have control := first.control
          rw [passes] at control
          cases isCall
          exact absurd control.goesOn_noCall (by simp [first, Stmt.isCall])
        | succ earlier => exact before earlier (Nat.lt_of_succ_lt_succ less) target isCall
    · rw [executions_last passes] at stands
      cases position with
      | zero =>
        cases stands
        exact ⟨rfl, fun _ less => absurd less (Nat.not_lt_zero _)⟩
      | succ position => cases stands

/-- An execution stands at its place, with no call in front of it on its line. -/
theorem LineRun.mem_placed {run : LineRun program} {place : Place} {execution : Execution program}
    (member : (place, execution) ∈ run.placed) :
    place.index = run.index ∧ execution.index = place.index ∧
      program.stmtAt? place = some execution.stmt ∧
      ∀ position < place.position, ∀ target,
        program.stmtAt? ⟨place.index, position⟩ ≠ some (.gosub target) := by
  obtain ⟨⟨found, position⟩, among, isPlaced⟩ := List.mem_map.mp member
  cases isPlaced
  have stands := List.mem_zipIdx_iff_getElem?.mp among
  obtain ⟨sameIndex, line, isLine, -⟩ := mem_executions (List.mem_of_getElem? stands)
  rw [executions, isLine] at stands
  refine ⟨rfl, sameIndex, ?_⟩
  simp only [Program.stmtAt?, isLine, Option.bind_some]
  exact executions_at stands

/-- A line with statements executes the first of them. -/
theorem LineRun.placed_head {run : LineRun program} {line : Line}
    (isLine : program.lineAt? run.index = some line) (filled : line.statements ≠ []) :
    ∃ execution others, run.placed = (⟨run.index, 0⟩, execution) :: others := by
  have executed : ∃ execution others, run.executions = execution :: others := by
    simp only [executions, isLine]
    cases stmts : line.statements with
    | nil => exact absurd stmts filled
    | cons stmt rest =>
      by_cases passes : (⟨run.index, stmt, run.before⟩ : Execution program).result = .ok none
      · exact ⟨_, _, executions_next passes⟩
      · exact ⟨_, _, executions_last passes⟩
  obtain ⟨execution, others, executed⟩ := executed
  rw [placed, executed]
  exact ⟨_, _, rfl⟩

/-! ## The end of a run -/

/-- A run that executes no line has reached its limit, or there is no line to execute. -/
theorem ending_of_lineRuns_nil {limit : Nat} {index : Int} {state : State}
    (none : lineRuns program limit index state = []) :
    (runFrom program limit index state []).ending = .unfinished ∨
      (runFrom program limit index state []).ending = .completed ∧ ¬ index < program.length := by
  by_cases inside : index < program.length
  · left
    cases limit with
    | zero =>
      unfold runFrom
      rw [if_pos inside]
    | succ limit =>
      unfold lineRuns at none
      rw [if_pos inside] at none
      dsimp only at none
      split at none
      · split at none <;> cases none
      · cases none
  · right
    rw [runFrom_past inside]
    exact ⟨rfl, inside⟩

/-- A run whose last line goes on to another has reached its limit, or there is no such line. -/
theorem ending_of_lineRuns_concat {limit : Nat} {index next : Int} {state : State}
    {earlier : List (LineRun program)} {last : LineRun program}
    (split : lineRuns program limit index state = earlier ++ [last])
    (gave : last.result = .ok next) (goesOn : next ≠ -1) :
    (runFrom program limit index state []).ending = .unfinished ∨
      (runFrom program limit index state []).ending = .completed ∧ ¬ next < program.length := by
  induction earlier generalizing limit index state with
  | nil =>
    obtain ⟨-, ⟨-, ended⟩ | ⟨fewer, chosen, same, none, ending⟩⟩ := lineRuns_eq_cons split
    · exact absurd (ended next gave) goesOn
    · rw [gave] at same
      cases same
      rw [ending]
      exact ending_of_lineRuns_nil none.symm
  | cons first earlier inductionHypothesis =>
    obtain ⟨-, ⟨none, -⟩ | ⟨fewer, chosen, -, others, ending⟩⟩ := lineRuns_eq_cons split
    · simp at none
    · rw [ending]
      exact inductionHypothesis others.symm

/-! ## What follows a return -/

/-- Without their places, the statements that a run executes are its trace. -/
theorem placedTrace_trace (program : Program) (limit : Nat) (state : State) :
    (placedTrace program limit state).map Prod.snd = trace program limit state :=
  executions_of_placed _

/-- The statements that a run executes stand at their places, on lines within the program, with
no call in front of them on these lines. -/
theorem mem_placedTrace {limit : Nat} {feed : Feed} {step : Place × Execution program}
    (member : step ∈ placedTrace program limit (.initial feed)) :
    (0 ≤ step.1.index ∧ step.1.index < program.length) ∧ step.2.index = step.1.index ∧
      program.stmtAt? step.1 = some step.2.stmt ∧
      ∀ position < step.1.position, ∀ target,
        program.stmtAt? ⟨step.1.index, position⟩ ≠ some (.gosub target) := by
  obtain ⟨run, ran, placed⟩ := List.mem_flatMap.mp member
  obtain ⟨inside, ready⟩ := lineRuns_ready program limit feed run ran
  obtain ⟨sameIndex, standing⟩ := LineRun.mem_placed placed
  refine ⟨?_, standing⟩
  rw [sameIndex]
  exact ⟨ready.notNegative, inside⟩

/-- Behind a statement that chooses the line to come, the statements executed are those of the
lines from the chosen one on. -/
theorem placedTrace_chosen {limit : Nat} {state : State}
    {earlier later : List (Place × Execution program)} {last : Place × Execution program}
    {next : Int} (split : placedTrace program limit state = earlier ++ last :: later)
    (chose : last.2.result = .ok (some next)) :
    ∃ runs run further, lineRuns program limit 0 state = runs ++ run :: further ∧
      run.result = .ok next ∧ (∀ following ∈ further.head?, following.index = next) ∧
      later = further.flatMap LineRun.placed := by
  have whole : trace program limit state =
      earlier.map Prod.snd ++ last.2 :: later.map Prod.snd := by
    rw [← placedTrace_trace, split, List.map_append, List.map_cons]
  obtain ⟨runs, run, further, lines, upTo, gave, goesOn⟩ := trace_chosen whole chose
  refine ⟨runs, run, further, lines, gave, goesOn, ?_⟩
  have sides : (earlier ++ [last]) ++ later =
      (runs ++ [run]).flatMap LineRun.placed ++ further.flatMap LineRun.placed := by
    rw [← List.flatMap_append, List.append_assoc, List.append_assoc, List.singleton_append,
      List.singleton_append, ← split, placedTrace, lines]
  have sizes : (earlier ++ [last]).length = ((runs ++ [run]).flatMap LineRun.placed).length := by
    have same := congrArg List.length upTo
    rw [← executions_of_placed, List.length_map] at same
    rw [← same]
    simp
  exact (List.append_inj sides sizes).2

/-- In a program whose lines all have statements, a statement that chooses the line to come is
followed by the first one of that line, unless the run ends there. -/
theorem placedTrace_next {limit : Nat} {feed : Feed}
    {earlier later : List (Place × Execution program)} {last : Place × Execution program}
    {next : Int} (filled : ∀ line ∈ program, line.statements ≠ [])
    (split : placedTrace program limit (.initial feed) = earlier ++ last :: later)
    (chose : last.2.result = .ok (some next)) (goesOn : next ≠ -1) :
    (∀ step ∈ later.head?, step.1 = ⟨next, 0⟩) ∧
      (later = [] → (run program limit (.initial feed)).ending = .unfinished ∨
        (run program limit (.initial feed)).ending = .completed ∧ ¬ next < program.length) := by
  obtain ⟨runs, last, further, lines, gave, follows, rfl⟩ := placedTrace_chosen split chose
  cases further with
  | nil =>
    constructor
    · intro step impossible
      cases impossible
    · intro _
      exact ending_of_lineRuns_concat lines gave goesOn
  | cons following others =>
    obtain ⟨inside, ready⟩ := lineRuns_ready program limit feed following (by simp [lines])
    obtain ⟨line, isLine, -⟩ := Program.lineAt?_within ready.notNegative inside
    obtain ⟨execution, rest, first⟩ :=
      LineRun.placed_head isLine (filled line (mem_of_lineAt? isLine))
    rw [List.flatMap_cons, first, follows following rfl]
    constructor
    · intro step isNext
      cases isNext
      rfl
    · intro none
      cases none

/-- What first brings the returns back to their number below a note is a return that takes the
note. -/
theorem Leads.takes_note {start finish : State} {done : List (Execution program)}
    {last : Execution program} {back : Int} {below : List Int}
    (leads : Leads start (done ++ [last]) finish) (held : back :: below <:+ start.returns)
    (above : ∀ execution ∈ done, execution.after.returns.length ≠ below.length)
    (level : last.after.returns.length = below.length) :
    last.stmt = .ret ∧ last.result = .ok (some back) := by
  obtain ⟨between, reached, final⟩ := leads.split
  have kept := reached.frame held above
  cases final with
  | cons _ _ =>
    rcases last.control.frame kept with deeper | ⟨isReturn, -, chose⟩
    · have longer := deeper.length_le
      rw [level, List.length_cons] at longer
      omega
    · exact ⟨isReturn, chose⟩

/-- What first brings the returns back to their number in front of a call is a return, and it
chooses the line behind that of the call. -/
theorem placedTrace_return {limit : Nat} {feed : Feed}
    {earlier between later : List (Place × Execution program)}
    {call back : Place × Execution program} {target : Value}
    (split : placedTrace program limit (.initial feed) =
      earlier ++ call :: (between ++ back :: later))
    (calls : call.2.stmt = .gosub target)
    (above : ∀ step ∈ between, step.2.after.returns.length ≠ call.2.before.returns.length)
    (level : back.2.after.returns.length = call.2.before.returns.length) :
    back.2.stmt = .ret ∧ back.2.result = .ok (some (call.1.index + 1)) := by
  have splitTrace : trace program limit (.initial feed) = earlier.map Prod.snd ++ call.2 ::
      (between.map Prod.snd ++ [back.2] ++ later.map Prod.snd) := by
    rw [← placedTrace_trace, split]
    simp
  have noted : (call.2.index + 1) :: call.2.before.returns <:+ call.2.after.returns := by
    rw [Execution.after, calls]
    exact List.suffix_rfl
  have ofCall : call ∈ placedTrace program limit (.initial feed) := by
    rw [split]
    exact List.mem_append_right earlier List.mem_cons_self
  rw [← (mem_placedTrace ofCall).2.1]
  exact (trace_behind splitTrace (List.prefix_append _ _)).takes_note noted
    (List.forall_mem_map.mpr above) level

/-- Where returns lead. The statements that a run executes, taken with their places, are those
of its trace; each stands at its place, and none stands behind a call on its line. Whatever
first brings the returns back to their number in front of a call is a return, and it leads to
the first statement of the line behind that of the call. This is the place behind the call
exactly if the call is the last statement of its line. Nothing is executed behind the return
only if the limit is reached there, or if the call stands on the last line of the program.

The trace is taken with the place of each statement on its line. That returns are balanced says
which return comes back to a call and what it chooses, namely the line behind. A line that is chosen
begins with its first statement. This is the place behind the call only if nothing follows the call
on its line. -/
theorem return_behind_line {tokens : List Token}
    (accepted : Program.ofTokens tokens = .ok program) (limit : Nat) (feed : Feed) :
    let start := State.initial feed
    let steps := placedTrace program limit start
    steps.map Prod.snd = trace program limit start ∧
    (∀ step ∈ steps, program.stmtAt? step.1 = some step.2.stmt ∧
      ∀ position < step.1.position, ∀ target,
        program.stmtAt? ⟨step.1.index, position⟩ ≠ some (.gosub target)) ∧
    ∀ earlier call between back later target,
      steps = earlier ++ call :: (between ++ back :: later) →
      call.2.stmt = .gosub target →
      (∀ step ∈ between, step.2.after.returns.length ≠ call.2.before.returns.length) →
      back.2.after.returns.length = call.2.before.returns.length →
        back.2.stmt = .ret ∧
        (∀ next ∈ later.head?, next.1 = ⟨call.1.index + 1, 0⟩ ∧
          (next.1 = call.1.behind program ↔
            program.stmtAt? ⟨call.1.index, call.1.position + 1⟩ = none)) ∧
        (later = [] → (run program limit start).ending = .unfinished ∨
          (run program limit start).ending = .completed ∧
            call.1.index + 1 = (program.length : Int)) := by
  intro start steps
  have filled := ((Program.Grammar.ofTokens_eq_ok_iff tokens program).mp accepted).forall
    Program.Grammar.NumberedLine.filled
  refine ⟨placedTrace_trace program limit start,
    fun step member => (mem_placedTrace member).2.2, ?_⟩
  intro earlier call between back later target split calls above level
  obtain ⟨isReturn, chose⟩ := placedTrace_return split calls above level
  have splitBack : placedTrace program limit start =
      (earlier ++ call :: between) ++ back :: later := by
    rw [List.append_assoc, List.cons_append]
    exact split
  -- The line of the call lies within the program, so the one behind it is no sign of the end.
  have ofCall : call ∈ placedTrace program limit start := by simp [splitBack]
  obtain ⟨notNegative, inside⟩ := (mem_placedTrace ofCall).1
  obtain ⟨leadsTo, ended⟩ := placedTrace_next filled splitBack chose (by omega)
  refine ⟨isReturn, ?_, ?_⟩
  · intro next isNext
    rw [leadsTo next isNext]
    exact ⟨rfl, Place.next_eq_behind_iff program call.1⟩
  · intro none
    rcases ended none with unfinished | ⟨completed, past⟩
    · exact .inl unfinished
    · exact .inr ⟨completed, by omega⟩

/-- The subroutine calls another, loses what stands behind that call, and yet comes back behind
the first call, which ends its line. -/
theorem return_behind_line_nested :
    let token (kind : Token.Kind) (value : Value) : Token := ⟨kind, value, .number 1, .number 0⟩
    let word (word : Keyword) := token (.keyword word) .absent
    let number (n : Int) := token .number (.number n)
    let colon := token .colon .absent
    let newline := token .newline .absent
    let tokens := [number 10, word .inputWord, token .identifier (.text "A"), colon,
      word .gosubWord, number 30, newline, number 20, word .endWord, newline, number 30,
      word .gosubWord, number 40, colon, word .endWord, newline, number 40, word .returnWord]
    let program : Program := [⟨.number 10, [.input (.text "A"), .gosub (.number 30)]⟩,
      ⟨.number 20, [.stop]⟩, ⟨.number 30, [.gosub (.number 40), .stop]⟩, ⟨.number 40, [.ret]⟩]
    let start := State.initial ⟨[.ok 7], .endOfInput⟩
    Program.ofTokens tokens = .ok program ∧
      ∃ earlier call between back next,
        placedTrace program 9 start = earlier ++ call :: (between ++ [back, next]) ∧
        call.1 = ⟨0, 1⟩ ∧ between.map Prod.fst = [⟨2, 0⟩, ⟨3, 0⟩] ∧ back.2.stmt = .ret ∧
        next.1 = call.1.behind program := by
  intro token word number colon newline tokens program start
  have accepted : Program.ofTokens tokens = .ok program := rfl
  refine ⟨accepted, ?_⟩
  let steps := placedTrace program 9 start
  let call := steps.get ⟨1, by decide⟩
  let between := (steps.drop 2).take 2
  let back := steps.get ⟨4, by decide⟩
  let next := steps.get ⟨5, by decide⟩
  have split : steps = steps.take 1 ++ call :: (between ++ back :: [next]) := rfl
  obtain ⟨isReturn, leadsTo, -⟩ := (return_behind_line accepted 9 ⟨[.ok 7], .endOfInput⟩).2.2
    (steps.take 1) call between back [next] (.number 30) split rfl (by decide) (by decide)
  exact ⟨steps.take 1, call, between, back, next, split, rfl, rfl, isReturn,
    (leadsTo next rfl).2.mpr rfl⟩

/-- Behind a call in the middle of a line the rest of the line is lost: the return goes to the
next line, and all that the run prints is the notice of its end. -/
theorem return_behind_line_lost :
    let text := "10 GOSUB 30 : PRINT 1\n20 END\n30 RETURN\n"
    let shown : Stmt := .print [.value (.constant (.number 1))]
    let program : Program := [⟨.number 10, [.gosub (.number 30), shown]⟩,
      ⟨.number 20, [.stop]⟩, ⟨.number 30, [.ret]⟩]
    let start := State.initial ⟨[], .endOfInput⟩
    Source.program text = .ok program ∧
      (placedTrace program 3 start).map (fun step => (step.1, step.2.stmt)) =
        [(⟨0, 0⟩, .gosub (.number 30)), (⟨2, 0⟩, .ret), (⟨1, 0⟩, .stop)] ∧
      Place.behind program ⟨0, 0⟩ = ⟨0, 1⟩ ∧ (run program 3 start).ending = .completed ∧
      (run program 3 start).state.log = [.line "Fim do programa."] := by
  decide +kernel

end Machine

end LineBasic
