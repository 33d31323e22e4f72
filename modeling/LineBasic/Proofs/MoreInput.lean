import LineBasic.Proofs.InputLines
import LineBasic.Proofs.Trace

/-!
# Runs with more input and more steps

A run sees no more of its input than the replies that it has asked for, and no more of its
limit than whether it is reached. So a run that ends by itself ends in the same way, with the
same state and the same lines behind it, when further replies follow and more lines may be
executed. A run that stops for want of a reply or of a line goes on instead. Whatever it has
shown by then and every line that it has completed are the beginning of what the longer run
shows and completes, even if the last line was left in the middle.

Replies that follow stand behind those still to come. They may also bring another fault for
the time when they, too, are used up: a run that never gets there does not know the difference.
-/

namespace LineBasic.Machine

variable {program : Program} {index : Int} {state : State}
  {more : List (Except Fault Int)} {atEnd cause : Fault}

/-! ## What is shown -/

/-- A statement adds to what has been shown, and takes nothing back. -/
theorem exec_log (program : Program) (index : Int) (stmt : Stmt) (state : State) :
    state.log <:+ (stmt.exec program index state).2.log := by
  fun_cases Stmt.exec program index stmt state <;>
    first | exact List.suffix_rfl | exact List.suffix_cons ..

/-- So do statements executed one after another. -/
theorem Leads.log {start finish : State} {trace : List (Execution program)}
    (leads : Leads start trace finish) : start.log <:+ finish.log := by
  let Grown (state : State) : Prop := start.log <:+ state.log
  have begins : Grown start := List.suffix_rfl
  have step : ∀ execution ∈ trace, Grown execution.before → Grown execution.after :=
    fun execution _ grown => grown.trans (exec_log program execution.index execution.stmt _)
  exact (leads.invariant begins step).2

/-- What the first statement of a line has shown is shown by the line. -/
theorem execAll_log (program : Program) (index : Int) (stmt : Stmt) (rest : List Stmt)
    (state : State) :
    (stmt.exec program index state).2.log <:+
      (execAll program index (stmt :: rest) state).2.log := by
  rw [execAll]
  rcases stmt.exec program index state with ⟨fault | (_ | next), after⟩
  · exact List.suffix_rfl
  · exact (execAll_executions program index rest after).1.log
  · exact List.suffix_rfl

/-- A run adds to what has been shown and to the lines visited. -/
theorem runFrom_grows (program : Program) (limit : Nat) (index : Int) (state : State)
    (visits : List Visit) :
    state.log <:+ (runFrom program limit index state visits).state.log ∧
      visits <:+ (runFrom program limit index state visits).visits := by
  rw [runFrom_visits]
  exact ⟨(runFrom_records program limit index state).leads.log, List.suffix_append _ _⟩

/-- What the first line of a run has shown is shown by the run. -/
theorem runFrom_line_log (limit : Nat) (state : State) (visits : List Visit)
    (inside : index < program.length) :
    (program.execLine index state).2.log <:+
      (runFrom program (limit + 1) index state visits).state.log := by
  rcases ran : program.execLine index state with ⟨fault | next, after⟩
  · simp only [runFrom_faulted inside ran, List.suffix_rfl]
  · by_cases ended : next = -1
    · subst ended
      simp only [runFrom_ended inside ran, List.suffix_rfl]
    · rw [runFrom_next inside ran ended]
      exact (runFrom_grows program limit next after _).1

/-- Where more has been shown, the output is longer. -/
theorem State.output_grows {other : State} (grows : state.log <:+ other.log) :
    ∃ rest, other.output = state.output ++ rest := by
  obtain ⟨events, isLonger⟩ := grows
  refine ⟨String.join (events.reverse.map Event.text), ?_⟩
  rw [State.output, State.output, ← isLonger, List.reverse_append, List.map_append,
    String.join_append]

/-! ## More replies -/

/-- The state with further replies behind those still to come, and a fault of their own at
their end. -/
def State.supplied (more : List (Except Fault Int)) (atEnd : Fault) (state : State) : State :=
  { state with feed := ⟨state.feed.replies ++ more, atEnd⟩ }

/-- Further replies keep the variables. -/
@[simp]
theorem State.supplied_store : (state.supplied more atEnd).store = state.store := rfl

/-- Further replies keep the returns. -/
@[simp]
theorem State.supplied_returns : (state.supplied more atEnd).returns = state.returns := rfl

/-- Further replies keep what has been shown. -/
@[simp]
theorem State.supplied_log : (state.supplied more atEnd).log = state.log := rfl

/-- What becomes of an outcome when more replies follow. It stays the same, unless it is the
fault for want of a reply: then all that is known is that nothing shown is taken back. -/
inductive Continues {α : Type} (more : List (Except Fault Int)) (atEnd cause : Fault) :
    (outcome other : Except Fault α × State) → Prop where
  | same {result : Except Fault α} {after : State} (kept : after.feed.atEnd = cause) :
      Continues more atEnd cause (result, after) (result, after.supplied more atEnd)
  | starved {after : State} {other : Except Fault α × State} (shown : after.log <:+ other.2.log) :
      Continues more atEnd cause (.error cause, after) other

/-- What succeeds stays the same. -/
theorem Continues.ok {α : Type} {given : α} {after : State} {other : Except Fault α × State}
    (continues : Continues more atEnd cause (.ok given, after) other) :
    other = (.ok given, after.supplied more atEnd) ∧ after.feed.atEnd = cause := by
  cases continues with
  | same kept => exact ⟨rfl, kept⟩

/-- A statement does the same, unless it asks for a reply when there is none left. -/
theorem exec_continues (program : Program) (index : Int) (stmt : Stmt)
    (kept : state.feed.atEnd = cause) :
    Continues more atEnd cause (stmt.exec program index state)
      (stmt.exec program index (state.supplied more atEnd)) := by
  cases stmt with
  | assign name expr =>
    simp only [Stmt.exec, State.supplied_store]
    cases expr.eval state.store with
    | ok value => exact .same kept
    | error fault => exact .same kept
  | print items =>
    simp only [Stmt.exec, State.supplied_store]
    cases printedLine state.store items with
    | ok text => exact .same kept
    | error fault => exact .same kept
  | input name =>
    simp only [Stmt.exec]
    cases name.shown? with
    | none => exact .same kept
    | some shown =>
      obtain ⟨store, returns, ⟨replies, end'⟩, log⟩ := state
      obtain rfl : end' = cause := kept
      cases replies with
      | nil =>
        refine .starved ?_
        cases more with
        | nil => exact List.suffix_rfl
        | cons reply rest => cases reply <;> exact List.suffix_rfl
      | cons reply rest =>
        cases reply with
        | ok n => exact .same rfl
        | error fault => exact .same rfl
  | branch condition target =>
    simp only [Stmt.exec, State.supplied_store]
    cases condition.eval state.store with
    | error fault => exact .same kept
    | ok holds =>
      cases holds with
      | true => exact .same kept
      | false => exact .same kept
  | goto target => exact .same kept
  | gosub target => exact .same kept
  | ret =>
    simp only [Stmt.exec, State.supplied_returns]
    cases state.returns with
    | nil => exact .same kept
    | cons back rest => exact .same kept
  | stop => exact .same kept
  | remark => exact .same kept
  | faulty fault => exact .same kept

/-- Statements of a line do the same one after another, up to the one that lacks a reply. -/
theorem execAll_continues (program : Program) (index : Int) (stmts : List Stmt)
    (kept : state.feed.atEnd = cause) :
    Continues more atEnd cause (execAll program index stmts state)
      (execAll program index stmts (state.supplied more atEnd)) := by
  induction stmts generalizing state with
  | nil => exact .same kept
  | cons stmt rest inductionHypothesis =>
    have shown := execAll_log program index stmt rest (state.supplied more atEnd)
    have first : Continues more atEnd cause (stmt.exec program index state)
        (stmt.exec program index (state.supplied more atEnd)) :=
      exec_continues program index stmt kept
    rw [execAll]
    generalize stmt.exec program index state = outcome at first ⊢
    generalize second : stmt.exec program index (state.supplied more atEnd) = other at first shown
    cases first with
    | @same result after stillKept =>
      rw [execAll, second]
      rcases result with fault | (_ | next)
      · exact .same stillKept
      · exact inductionHypothesis stillKept
      · exact .same stillKept
    | starved lastShown => exact .starved (lastShown.trans shown)

/-- A line does the same, unless it lacks a reply. -/
theorem execLine_continues (program : Program) (index : Int) (kept : state.feed.atEnd = cause) :
    Continues more atEnd cause (program.execLine index state)
      (program.execLine index (state.supplied more atEnd)) := by
  unfold Program.execLine
  cases program.lineAt? index with
  | some line => exact execAll_continues program index line.statements kept
  | none => exact .same kept

/-! ## More replies and more lines -/

/-- The report of a run that has further replies to come. -/
def Report.supplied (more : List (Except Fault Int)) (atEnd : Fault) (report : Report) : Report :=
  { report with state := report.state.supplied more atEnd }

/-- What becomes of a report when more replies follow and more lines may be executed. It stays
the same if the run has ended by itself. Otherwise the run goes on from there. -/
inductive Report.Continues (more : List (Except Fault Int)) (atEnd cause : Fault) :
    (report other : Report) → Prop where
  | same {report : Report} (ends : report.ending ≠ .unfinished) :
      Continues more atEnd cause report (report.supplied more atEnd)
  | further {report other : Report}
      (stopped : report.ending = .unfinished ∨ report.ending = .faulted cause)
      (shown : report.state.log <:+ other.state.log) (visited : report.visits <:+ other.visits) :
      Continues more atEnd cause report other

namespace Report.Continues

variable {report other : Report} (continues : report.Continues more atEnd cause other)

include continues

/-- Nothing that was shown is taken back. -/
theorem log : report.state.log <:+ other.state.log := by
  cases continues with
  | same => exact List.suffix_rfl
  | further stopped shown => exact shown

/-- Every line that was completed stays so. -/
theorem visits : report.visits <:+ other.visits := by
  cases continues with
  | same => exact List.suffix_rfl
  | further stopped shown visited => exact visited

/-- A run that has ended by itself, and not for want of a reply, stays the same. -/
theorem eq_supplied (finished : report.ending ≠ .unfinished)
    (fed : report.ending ≠ .faulted cause) : other = report.supplied more atEnd := by
  cases continues with
  | same => rfl
  | further stopped => exact (stopped.elim finished fed).elim

end Report.Continues

/-- A run from a line on ends in the same way or goes on. The induction is on the lines of the
shorter run; the longer one has at least as many left. -/
theorem runFrom_continues {limit most : Nat} {visits : List Visit} (enough : limit ≤ most)
    (kept : state.feed.atEnd = cause) :
    Report.Continues more atEnd cause (runFrom program limit index state visits)
      (runFrom program most index (state.supplied more atEnd) visits) := by
  have line (index : Int) {state : State} (kept : state.feed.atEnd = cause) :
      Machine.Continues more atEnd cause (program.execLine index state)
        (program.execLine index (state.supplied more atEnd)) :=
    execLine_continues program index kept
  fun_induction runFrom program limit index state visits generalizing most with
  | case1 index state visits inside =>
    obtain ⟨shown, visited⟩ := runFrom_grows program most index (state.supplied more atEnd) visits
    exact .further (.inl rfl) shown visited
  | case2 index state visits inside limit after ran =>
    obtain ⟨most, rfl⟩ := Nat.exists_eq_add_one.mpr (Nat.zero_lt_of_lt enough)
    have continues := line index kept
    rw [ran] at continues
    rw [runFrom_ended inside continues.ok.1]
    exact .same (by simp)
  | case3 index state visits inside limit next after ran visited goesOn =>
    rename_i inductionHypothesis
    obtain ⟨most, rfl⟩ := Nat.exists_eq_add_one.mpr (Nat.zero_lt_of_lt enough)
    have continues := line index kept
    rw [ran] at continues
    obtain ⟨ranOn, stillKept⟩ := continues.ok
    rw [runFrom_next inside ranOn goesOn]
    exact inductionHypothesis (Nat.le_of_succ_le_succ enough) stillKept
  | case4 index state visits inside limit fault after ran =>
    obtain ⟨most, rfl⟩ := Nat.exists_eq_add_one.mpr (Nat.zero_lt_of_lt enough)
    have continues := line index kept
    rw [ran] at continues
    have shown := runFrom_line_log most (state.supplied more atEnd) visits inside
    have visited := (runFrom_grows program (most + 1) index (state.supplied more atEnd) visits).2
    generalize ranOn : program.execLine index (state.supplied more atEnd) = other
      at continues shown
    cases continues with
    | same stillKept =>
      rw [runFrom_faulted inside ranOn]
      exact .same (by simp)
    | starved lastShown => exact .further (.inr rfl) (lastShown.trans shown) visited
  | case5 limit index state visits past =>
    rw [runFrom_past past]
    exact .same (by simp)

/-- A run on a text for input, and a run on a longer text that may execute more lines. The
first text is empty or ends with a line feed. If the first run ends by itself, the second is the
same: the same ending, with the same fault if there is one, the same output, variables and
returns, and the same lines. If the first run lacks input or reaches its limit, its output is the
beginning of that of the second, and so are the lines that it has completed.

Further input only adds replies behind those of the first text, which is ended. By induction over
the lines of the first run, the second does the same up to where the first stops; so it is the same
if the first has ended by itself, and shows more otherwise. -/
theorem run_monotone (program : Program) {text : String} (ended : Text.Ended text.toList)
    (further : String) {limit most : Nat} (enough : limit ≤ most) :
    let report := run program limit (.initial (.ofText text))
    let other := run program most (.initial (.ofText (text ++ further)))
    (report.ending ≠ .unfinished ∧ report.ending ≠ .faulted .endOfInput →
      other.ending = report.ending ∧ other.state.output = report.state.output ∧
        other.state.store = report.state.store ∧ other.state.returns = report.state.returns ∧
        other.lines = report.lines ∧ other.visits = report.visits) ∧
    (report.ending = .unfinished ∨ report.ending = .faulted .endOfInput →
      (∃ rest, other.state.output = report.state.output ++ rest) ∧
        report.visits.reverse <+: other.visits.reverse) := by
  intro report other
  have continues :
      report.Continues (Feed.ofText further).replies .endOfInput .endOfInput other := by
    have supply : State.initial (.ofText (text ++ further)) =
        (State.initial (.ofText text)).supplied (Feed.ofText further).replies .endOfInput := by
      rw [Feed.ofText_append ended]
      rfl
    rw [show other = run program most _ from congrArg (run program most) supply]
    exact runFrom_continues enough rfl
  constructor
  · rintro ⟨finished, fed⟩
    rw [continues.eq_supplied finished fed]
    exact ⟨rfl, rfl, rfl, rfl, rfl, rfl⟩
  · intro _
    exact ⟨State.output_grows continues.log, List.reverse_prefix.mpr continues.visits⟩

/-- The first run stops in the middle of its only line, where the second one goes on. -/
theorem run_monotone_midway :
    let program : Program := [⟨.number 10, [.input (.text "A"), .print [.value (.var (.text "A"))],
      .input (.text "B"), .print [.value (.var (.text "B"))]]⟩]
    let report := run program 1 (.initial (.ofText "1\r\n"))
    let other := run program 7 (.initial (.ofText ("1\r\n" ++ "2")))
    report.ending = .faulted .endOfInput ∧ report.state.output = "Digite A: 1\nDigite B: " ∧
      other.state.output = "Digite A: 1\nDigite B: 2\n" ∧
      (∃ rest, other.state.output = report.state.output ++ rest) ∧
      report.visits.reverse <+: other.visits.reverse := by
  intro program report other
  have starved : report.ending = .faulted .endOfInput := by decide +kernel
  have ended : Text.Ended "1\r\n".toList := .inr (by decide)
  have longer := (run_monotone program ended "2" (by decide : 1 ≤ 7)).2 (.inr starved)
  exact ⟨starved, by decide +kernel, by decide +kernel, longer.1, longer.2⟩

end LineBasic.Machine
