import LineBasic.Proofs.ReturnStack

/-!
# Subroutines

A call notes the line behind its own on top of the returns that it finds. As long as
there are more returns than the call found, the note and everything below it stay in
place, whatever is called and wherever is jumped to: statements only touch what lies on
top. What brings the returns back to their number is therefore a return that takes this
very note. It leaves the returns that the call found, and the run goes on behind the line
of the call.

All this holds from every state in which a run may begin.
-/

namespace LineBasic.Machine

/-- A statement leaves a note and all below it in place, unless it is a return that takes
the note. -/
theorem Control.frame {program : Program} {index back : Int} {stmt : Stmt}
    {returns below left : List Int} {result : Except Fault (Option Int)}
    (control : Control program index stmt returns result left)
    (held : back :: below <:+ returns) :
    back :: below <:+ left ∨ (stmt = .ret ∧ left = below ∧ result = .ok (some back)) := by
  cases control with
  | passes | fails | jumps | ends => exact .inl held
  | calls | missesCall => exact .inl (held.trans (List.suffix_cons _ _))
  | comesBack latest =>
    rcases List.suffix_cons_iff.mp held with isTop | deeper
    · obtain ⟨rfl, rfl⟩ := List.cons.inj isTop
      exact .inr ⟨rfl, rfl, rfl⟩
    · exact .inl deeper

variable {program : Program}

/-- Executions leave a note and all below it in place as long as there are more returns than
lie below it. -/
theorem Leads.frame {start finish : State} {done : List (Execution program)} {back : Int}
    {below : List Int} (leads : Leads start done finish) (held : back :: below <:+ start.returns)
    (above : ∀ execution ∈ done, execution.after.returns.length ≠ below.length) :
    back :: below <:+ finish.returns := by
  induction leads with
  | refl => exact held
  | cons first further inductionHypothesis =>
    apply inductionHypothesis
    · rcases first.control.frame held with kept | ⟨-, taken, -⟩
      · exact kept
      · exact absurd (congrArg List.length taken) (above first List.mem_cons_self)
    · intro execution member
      exact above execution (.tail _ member)

/-- The executions behind one of a run lead on from the state that it left. -/
theorem trace_behind {limit : Nat} {start : State} {earlier later done : List (Execution program)}
    {execution : Execution program}
    (split : trace program limit start = earlier ++ execution :: later) (first : done <+: later) :
    Leads execution.after done (stateAfter execution.after done) := by
  have whole := (runFrom_records program limit 0 start).leads
  change Leads start (trace program limit start) _ at whole
  rw [split] at whole
  obtain ⟨between, -, behind⟩ := whole.split
  cases behind with
  | cons _ further => exact further.upTo first

/-- Calls and returns are balanced. From a call on, as long as the returns have not come back
to the number that the call found, they are what it found with the line behind its own on
top, and perhaps more on top of that. When they first come back to that number, the statement
just executed is a return; the returns are exactly those that the call found; and that return
ends its line, which gives the line behind that of the call, and the run goes on there.

The frame is what the call leaves: its own index and one, on top of what it found. A statement
either keeps the frame or is a return that takes its top off, and the latter is the only way back to
the number that the call found. What a return chooses is what its line gives, and where the run goes
on. -/
theorem call_balanced {limit : Nat} {start : State} {earlier later : List (Execution program)}
    {call : Execution program} {target : Value}
    (split : trace program limit start = earlier ++ call :: later)
    (calls : call.stmt = .gosub target) :
    let found := call.before.returns
    (run program limit start).Records start (lineRuns program limit 0 start) ∧
    (∀ done, done <+: later →
      (∀ execution ∈ done, execution.after.returns.length ≠ found.length) →
        (call.index + 1) :: found <:+ (stateAfter call.after done).returns) ∧
    ∀ done last, done ++ [last] <+: later →
      (∀ execution ∈ done, execution.after.returns.length ≠ found.length) →
      last.after.returns.length = found.length →
        last.stmt = .ret ∧ last.after.returns = found ∧
        ∃ runs run further, lineRuns program limit 0 start = runs ++ run :: further ∧
          earlier ++ call :: (done ++ [last]) = (runs ++ [run]).flatMap LineRun.executions ∧
          run.result = .ok (call.index + 1) ∧
          ∀ following ∈ further.head?, following.index = call.index + 1 := by
  intro found
  have noted : (call.index + 1) :: found <:+ call.after.returns := by
    rw [Execution.after, calls]
    exact List.suffix_rfl
  refine ⟨runFrom_records program limit 0 start, ?_, ?_⟩
  · intro done first above
    exact (trace_behind split first).frame noted above
  · intro done last first above back
    obtain ⟨rest, rfl⟩ := first
    obtain ⟨between, reached, final⟩ :=
      (trace_behind split (List.prefix_append (done ++ [last]) rest)).split
    have held := reached.frame noted above
    cases final with
    | cons _ _ =>
      rcases last.control.frame held with kept | ⟨isReturn, taken, chose⟩
      · have longer := kept.length_le
        rw [back, List.length_cons] at longer
        omega
      · refine ⟨isReturn, taken, ?_⟩
        have splitLast : trace program limit start =
            (earlier ++ call :: done) ++ last :: rest := by
          rw [split]
          simp
        obtain ⟨runs, run, further, lines, upTo, gave, goesOn⟩ := trace_chosen splitLast chose
        refine ⟨runs, run, further, lines, ?_, gave, goesOn⟩
        rw [← upTo]
        simp

/-- A subroutine that calls itself, jumps away from behind the inner call and returns from
another line comes back behind the outer call. -/
theorem call_balanced_recursive :
    let program : Program := [⟨.number 10, [.gosub (.number 30)]⟩, ⟨.number 20, [.stop]⟩,
      ⟨.number 30, [.assign (.text "A") (.binary .plus (.var (.text "A")) (.constant (.number 1))),
        .branch ⟨.var (.text "A"), .known .less, .constant (.number 2)⟩ (.number 50)]⟩,
      ⟨.number 40, [.ret]⟩, ⟨.number 50, [.gosub (.number 30)]⟩, ⟨.number 60, [.goto (.number 40)]⟩]
    let start := State.initial ⟨[], .endOfInput⟩
    let call : Execution program := ⟨0, .gosub (.number 30), start⟩
    ∃ later done last, trace program 9 start = [] ++ call :: later ∧ done ++ [last] <+: later ∧
      done.map (fun execution => (execution.index, execution.after.returns)) =
        [(2, [1]), (2, [1]), (4, [5, 1]), (2, [5, 1]), (2, [5, 1]), (3, [1]), (5, [1])] ∧
      last.stmt = .ret ∧ last.after.returns = [] ∧
      ∃ runs run further, lineRuns program 9 0 start = runs ++ run :: further ∧
        run.result = .ok 1 ∧ ∀ following ∈ further.head?, following.index = 1 := by
  intro program start call
  let later := (trace program 9 start).tail
  let last := later.get ⟨7, by decide⟩
  have split : trace program 9 start = [] ++ call :: later := rfl
  have joined : later.take 7 ++ [last] = later.take 8 := List.take_append_getElem (by decide)
  have first : later.take 7 ++ [last] <+: later := by
    rw [joined]
    exact List.take_prefix 8 later
  have above : ∀ execution ∈ later.take 7, execution.after.returns.length ≠ 0 := by decide
  obtain ⟨-, -, back⟩ := call_balanced split rfl
  obtain ⟨isReturn, taken, runs, run, further, lines, -, gave, goesOn⟩ :=
    back (later.take 7) last first above (by decide)
  exact ⟨later, later.take 7, last, split, first, by decide, isReturn, taken, runs, run, further,
    lines, gave, goesOn⟩

end LineBasic.Machine
