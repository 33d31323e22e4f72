import LineBasic.Proofs.PlainFaults
import LineBasic.Proofs.WellFormed

/-!
# Renumbering

Line numbers are labels. A program whose lines and jumps are renumbered runs through the same
lines, shows the same, and leaves the same variables and returns, as long as different numbers
stay different. If it fails, it fails in the same way, and only the fault of a jump without a
destination shows the new number.

A number that occurs twice leads to the last line that has it, and so does what it becomes: the
search for a line only asks whether two numbers are the same. Truth values count as numbers
there, and so they are renumbered. Other values are no numbers and stay what they are.
-/

namespace LineBasic

open Machine

/-! ## Labels -/

namespace Value

/-- The label with another number, if it is a number. -/
def renumber (f : Int → Int) (value : Value) : Value :=
  match value.amount? with
  | some n => .number (f n)
  | none => value

variable {f : Int → Int} {value left right : Value}

/-- A value that counts as a number is renumbered as that number is. -/
theorem renumber_eq {n : Int} (amounts : value.amount? = some n) :
    value.renumber f = .number (f n) := by
  rw [renumber, amounts]

/-- A label that is no number stays what it is. -/
theorem renumber_eq_self (noNumber : value.amount? = none) : value.renumber f = value := by
  rw [renumber, noNumber]

/-- A number is the same as whatever amounts to it. -/
theorem same_iff_amount {n : Int} (amounts : left.amount? = some n) :
    left.same right = true ↔ right.amount? = some n := by
  have key_iff (value : Value) (n : Int) : value.key = .number n ↔ value.amount? = some n := by
    cases value <;> simp [key, amount?]
  rw [same_iff, (key_iff left n).mpr amounts, eq_comm, key_iff]

/-- Sameness does not depend on the order. -/
theorem same_comm (left right : Value) : left.same right = right.same left := by
  rw [Bool.eq_iff_iff, same_iff, same_iff, eq_comm]

/-- Labels are the same after renumbering if and only if they were before. -/
theorem same_renumber
    (apart : ∀ m n, left.amount? = some m → right.amount? = some n → f m = f n → m = n) :
    (left.renumber f).same (right.renumber f) = left.same right := by
  rw [Bool.eq_iff_iff]
  cases leftAmount : left.amount? with
  | some m =>
    rw [renumber_eq leftAmount, same_iff_amount rfl, same_iff_amount leftAmount]
    cases rightAmount : right.amount? with
    | some n =>
      rw [renumber_eq rightAmount]
      constructor
      · intro same
        rw [apart m n leftAmount rightAmount (Option.some.inj same).symm]
      · intro same
        rw [Option.some.inj same]
        rfl
    | none =>
      rw [renumber_eq_self rightAmount, rightAmount]
      simp
  | none =>
    rw [renumber_eq_self leftAmount]
    cases rightAmount : right.amount? with
    | some n =>
      rw [renumber_eq rightAmount, same_comm left, same_comm left, same_iff_amount rfl,
        same_iff_amount rightAmount, leftAmount]
      simp
    | none => rw [renumber_eq_self rightAmount]

/-- The label has no more digits than can be written, before renumbering and after. -/
def Short (f : Int → Int) (value : Value) : Prop :=
  ∀ n, value.amount? = some n →
    (Nat.toDigits 10 n.natAbs).length ≤ Numeral.digitLimit ∧
      (Nat.toDigits 10 (f n).natAbs).length ≤ Numeral.digitLimit

/-- A label with so few digits can be written after renumbering exactly if it could before. -/
theorem Short.writable_renumber (short : value.Short f) :
    (value.renumber f).writable = value.writable := by
  cases amounts : value.amount? with
  | none => rw [renumber_eq_self amounts]
  | some n =>
    obtain ⟨before, after⟩ := short n amounts
    rw [← Numeral.lt_writeBound_iff] at before after
    have isWritable : value.writable = true := by
      cases value with
      | number m =>
        obtain rfl : m = n := Option.some.inj amounts
        simp only [writable, before, decide_true]
      | truth holds => rfl
      | absent | text content | record fields => cases amounts
    rw [renumber_eq amounts, isWritable]
    simp only [writable, after, decide_true]

end Value

/-- The fault with another number for the line that it names, if any. -/
def Fault.renumber (f : Int → Int) : Fault → Fault
  | .missingLine target jump => .missingLine (target.renumber f) jump
  | fault => fault

/-- A fault that names no line stays what it is. -/
theorem Fault.Plain.renumber_eq {fault : Fault} (plain : fault.Plain) (f : Int → Int) :
    fault.renumber f = fault := by
  cases fault with
  | missingLine target jump => exact plain.elim
  | _ => rfl

/-- The ending with another number for the line that its fault names, if any. -/
def Machine.Ending.renumber (f : Int → Int) : Ending → Ending
  | .faulted fault => .faulted (fault.renumber f)
  | .completed => .completed
  | .unfinished => .unfinished

/-- The report with another number for the line that its fault names, if any. -/
def Machine.Report.renumber (f : Int → Int) (report : Report) : Report :=
  { report with ending := report.ending.renumber f }

/-- The line with another number, and other numbers for the lines to which it jumps. -/
def Line.renumber (f : Int → Int) (line : Line) : Line :=
  ⟨line.number.renumber f, line.statements.map (Stmt.relabel (Value.renumber f))⟩

namespace Program

/-- The program with other numbers for its lines. -/
def renumber (f : Int → Int) (program : Program) : Program := program.map (Line.renumber f)

/-- The integers among labels. -/
def numbersOf (labels : List Value) : List Int := labels.filterMap Value.amount?

variable {program : Program} {f : Int → Int}

/-- A renumbered program has as many lines. -/
theorem length_renumber : (program.renumber f).length = program.length := List.length_map _

/-- At each index it has the renumbered line. -/
theorem lineAt?_renumber (index : Int) :
    (program.renumber f).lineAt? index = (program.lineAt? index).map (Line.renumber f) := by
  unfold lineAt?
  rw [length_renumber]
  split
  · exact List.getElem?_map ..
  · split
    · exact List.getElem?_map ..
    · rfl

/-- A label leads to the line to which it led. -/
theorem indexOf?_renumber {target : Value}
    (same : ∀ line ∈ program,
      (line.number.renumber f).same (target.renumber f) = line.number.same target) :
    (program.renumber f).indexOf? (target.renumber f) = program.indexOf? target := by
  induction program with
  | nil => rfl
  | cons line rest inductionHypothesis =>
    obtain ⟨here, others⟩ := List.forall_mem_cons.mp same
    have further := inductionHypothesis others
    rw [renumber] at further
    rw [renumber, List.map_cons, indexOf?, further, Line.renumber, here, indexOf?]

end Program

/-! ## Runs -/

namespace Machine

/-- What something gives and leaves when lines are renumbered. -/
def renumbered {α : Type} (f : Int → Int) (outcome : Except Fault α × State) :
    Except Fault α × State :=
  (outcome.1.mapError (Fault.renumber f), outcome.2)

/-- A success is the same under other numbers. -/
theorem renumbered_ok {α : Type} (f : Int → Int) (given : α) (after : State) :
    renumbered f (.ok given, after) = (.ok given, after) := rfl

/-- A fault is the same but for the numbers that it names. -/
theorem renumbered_error {α : Type} (f : Int → Int) (fault : Fault) (after : State) :
    renumbered f ((.error fault, after) : Except Fault α × State) =
      (.error (fault.renumber f), after) := rfl

variable {program : Program} {f : Int → Int} {state : State}

section Renumbering

variable (plain : program.Plain)
  (apart : ∀ m ∈ Program.numbersOf program.labels, ∀ n ∈ Program.numbersOf program.labels,
    f m = f n → m = n)
  (short : ∀ target ∈ program.targets, target.Short f)
include apart short

omit plain in
/-- A jump leads to the line to which it led, and has the fault that it had. -/
theorem destination_renumber {jump : Jump} {target : Value} (named : target ∈ program.targets) :
    (program.renumber f).destination jump (target.renumber f) =
      (program.destination jump target).mapError (Fault.renumber f) := by
  have same : ∀ line ∈ program,
      (line.number.renumber f).same (target.renumber f) = line.number.same target := by
    intro line isLine
    have labels : line.number ∈ program.labels ∧ target ∈ program.labels :=
      ⟨List.mem_append_left _ (List.mem_map_of_mem isLine), List.mem_append_right _ named⟩
    apply Value.same_renumber
    intro m n isNumber isTarget
    exact apart m (List.mem_filterMap.mpr ⟨_, labels.1, isNumber⟩)
      n (List.mem_filterMap.mpr ⟨_, labels.2, isTarget⟩)
  rw [Program.destination, Program.destination, Program.indexOf?_renumber same]
  cases program.indexOf? target with
  | some index => rfl
  | none =>
    simp only [Fault.showing, (short target named).writable_renumber]
    split <;> rfl

include plain

/-- A statement does the same, and has the fault that it had. -/
theorem exec_renumber {index : Int} {line : Line} {stmt : Stmt} (isLine : line ∈ program)
    (among : stmt ∈ line.statements) (fed : state.feed.Plain) :
    (stmt.relabel (Value.renumber f)).exec (program.renumber f) index state =
      renumbered f (stmt.exec program index state) := by
  have destinations : ∀ jump target, stmt.jump? = some (jump, target) →
      (program.renumber f).destination jump (target.renumber f) =
        ((program.destination jump target).map (Option.map id)).mapError (Fault.renumber f) := by
    intro jump target isJump
    rw [destination_renumber apart short (Program.mem_targets isLine among isJump),
      Option.map_id, Except.map_id, id]
  have own : ∀ fault, Raises state stmt fault → fault.renumber f = fault := by
    intro fault raises
    exact (raises.plain (plain line isLine stmt among) fed).renumber_eq f
  have same := exec_relaid destinations (fun _ => rfl : _ → index + 1 = id (index + 1)) rfl own
  rwa [State.relocate_id, relaid_id] at same

/-- Statements of a line do the same one after another. -/
theorem execAll_renumber {index : Int} {line : Line} {stmts : List Stmt} (isLine : line ∈ program)
    (among : ∀ stmt ∈ stmts, stmt ∈ line.statements) (fed : state.feed.Plain) :
    execAll (program.renumber f) index (stmts.map (Stmt.relabel (Value.renumber f))) state =
      renumbered f (execAll program index stmts state) := by
  induction stmts generalizing state with
  | nil => rfl
  | cons stmt rest inductionHypothesis =>
    obtain ⟨here, others⟩ := List.forall_mem_cons.mp among
    have stillFed := fed.exec program index stmt
    rw [List.map_cons, execAll, execAll, exec_renumber plain apart short isLine here fed]
    rcases executed : stmt.exec program index state with ⟨fault | (_ | next), after⟩
    · rfl
    · rw [executed] at stillFed
      exact inductionHypothesis others stillFed
    · rfl

/-- A line does the same, wherever it is looked up. -/
theorem execLine_renumber (index : Int) (fed : state.feed.Plain) :
    (program.renumber f).execLine index state =
      renumbered f (program.execLine index state) := by
  rw [Program.execLine, Program.execLine, Program.lineAt?_renumber]
  cases found : program.lineAt? index with
  | some line =>
    exact execAll_renumber plain apart short (mem_of_lineAt? found) (fun _ among => among) fed
  | none =>
    simp only [Option.map_none, renumbered_error]
    split <;> rfl

/-- A run from a line on leaves the same report. -/
theorem runFrom_renumber (limit : Nat) (index : Int) (fed : state.feed.Plain)
    (visits : List Visit) :
    runFrom (program.renumber f) limit index state visits =
      (runFrom program limit index state visits).renumber f := by
  have executes (index : Int) {state : State} (fed : state.feed.Plain) :=
    execLine_renumber plain apart short index fed
  have length : (program.renumber f).length = program.length := Program.length_renumber
  fun_induction runFrom program limit index state visits with
  | case1 index state visits inside =>
    rw [← length] at inside
    rw [runFrom, if_pos inside]
    rfl
  | case2 index state visits inside limit after ran visited =>
    have ranAlike := executes index fed
    rw [ran] at ranAlike
    rw [← length] at inside
    exact runFrom_ended inside ranAlike
  | case3 index state visits inside limit next after ran visited goesOn =>
    rename_i inductionHypothesis
    have ranAlike := executes index fed
    have stillFed := fed.execLine program index
    rw [ran] at ranAlike stillFed
    rw [← length] at inside
    rw [runFrom_next inside ranAlike goesOn]
    exact inductionHypothesis stillFed
  | case4 index state visits inside limit fault after ran =>
    have ranAlike := executes index fed
    rw [ran] at ranAlike
    rw [← length] at inside
    exact runFrom_faulted inside ranAlike
  | case5 limit index state visits past =>
    rw [← length] at past
    exact runFrom_past past

/-- The same lines are executed, in the same states. -/
theorem lineRuns_renumber (limit : Nat) (index : Int) (fed : state.feed.Plain) :
    (lineRuns (program.renumber f) limit index state).map (fun run => (run.index, run.before)) =
      (lineRuns program limit index state).map (fun run => (run.index, run.before)) := by
  induction limit generalizing index state with
  | zero => simp [lineRuns]
  | succ limit inductionHypothesis =>
    have ranAlike := execLine_renumber plain apart short index fed
    have stillFed := fed.execLine program index
    unfold lineRuns
    rw [Program.length_renumber]
    by_cases inside : index < program.length
    · simp only [if_pos inside, LineRun.result, LineRun.after, ranAlike]
      rcases ran : program.execLine index state with ⟨fault | next, after⟩
      · rfl
      · rw [ran] at stillFed
        simp only [renumbered_ok]
        by_cases ended : next = -1
        · simp [ended]
        · simp [ended, inductionHypothesis next stillFed]
    · simp [inside]

end Renumbering

/-- Line numbers are only labels. Let a program be given, in which numbers may occur twice and
jumps may lead nowhere, and let its numbers be replaced so that different ones stay different.
Then for every input and limit the same lines are executed, each in the same state, and the run
leaves the same state: the same output, variables and returns. It ends as it did, and with the
same message if there is a fault, unless the message names a line, of which it then shows the
new number.

Where different numbers stay different, a number leads to the same index in both programs, or to
none in either. So a statement does the same in both but for the line that its fault may name. This
carries over to lines and, by induction over the limit, to runs. -/
theorem run_renumber (given : program.Given)
    (apart : ∀ m ∈ Program.numbersOf program.labels, ∀ n ∈ Program.numbersOf program.labels,
      f m = f n → m = n)
    (short : ∀ n ∈ Program.numbersOf program.targets,
      (Nat.toDigits 10 n.natAbs).length ≤ Numeral.digitLimit ∧
        (Nat.toDigits 10 (f n).natAbs).length ≤ Numeral.digitLimit)
    (limit : Nat) (text : String) :
    let start := State.initial (.ofText text)
    let report := run program limit start
    let other := run (program.renumber f) limit start
    (lineRuns (program.renumber f) limit 0 start).map (fun run => (run.index, run.before)) =
        (lineRuns program limit 0 start).map (fun run => (run.index, run.before)) ∧
      other.visits = report.visits ∧ other.state = report.state ∧
      other.ending = report.ending.renumber f ∧
      ∀ fault, report.ending = .faulted fault →
        other.ending = .faulted fault ∨
          ∃ (target : Value) (jump : Jump), fault = .missingLine target jump ∧
            other.ending = .faulted (.missingLine (target.renumber f) jump) ∧
            fault.message =
              "Linha " ++ target.shown ++ " não encontrada para " ++ jump.word ∧
            (Fault.missingLine (target.renumber f) jump).message =
              "Linha " ++ (target.renumber f).shown ++ " não encontrada para " ++ jump.word := by
  intro start report other
  have fed : start.feed.Plain := Feed.Plain.ofText text
  have shortTargets : ∀ target ∈ program.targets, target.Short f := fun target named n amounts =>
    short n (List.mem_filterMap.mpr ⟨target, named, amounts⟩)
  have runs := lineRuns_renumber given.plain apart shortTargets limit 0 fed
  have same : other = report.renumber f :=
    runFrom_renumber given.plain apart shortTargets limit 0 fed []
  refine ⟨runs, by rw [same]; rfl, by rw [same]; rfl, by rw [same]; rfl, ?_⟩
  intro fault failed
  have failsAlike : other.ending = .faulted (fault.renumber f) := by
    rw [same, Report.renumber, failed]
    rfl
  cases fault with
  | missingLine target jump => exact .inr ⟨target, jump, rfl, failsAlike, rfl, rfl⟩
  | _ => exact .inl failsAlike

/-- The number of two lines leads to the second of them, and no line has the number of the last
jump. The numbers get another order and become negative, and a truth value counts as one. -/
theorem run_renumber_duplicates :
    let node : Value := .record [
      .record [.text "LINE", .number 10, .record [.record [.text "INPUT", .text "A"]]],
      .record [.text "LINE", .truth true, .record [.record [.text "GOSUB", .number 10]]],
      .record [.text "LINE", .number 10, .record [.record [.text "GOTO", .number 99]]]]
    let program : Program := [⟨.number 10, [.input (.text "A")]⟩,
      ⟨.truth true, [.gosub (.number 10)]⟩, ⟨.number 10, [.goto (.number 99)]⟩]
    let other : Program := [⟨.number (-10), [.input (.text "A")]⟩,
      ⟨.number (-1), [.gosub (.number (-10))]⟩, ⟨.number (-10), [.goto (.number (-99))]⟩]
    let start := State.initial (.ofText "7\n")
    Program.ofValue node = .ok program ∧ program.renumber (fun n => -n) = other ∧
      (run program 10 start).ending = .faulted (.missingLine (.number 99) .goto) ∧
      (run other 10 start).ending = .faulted (.missingLine (.number (-99)) .goto) ∧
      (run other 10 start).state = (run program 10 start).state := by
  intro node program other start
  have read : Program.ofValue node = .ok program := rfl
  have renumbered : program.renumber (fun n => -n) = other := rfl
  have apart : ∀ m ∈ Program.numbersOf program.labels, ∀ n ∈ Program.numbersOf program.labels,
      -m = -n → m = n := fun m _ n _ => Int.neg_inj.mp
  have short : ∀ n ∈ Program.numbersOf program.targets,
      (Nat.toDigits 10 n.natAbs).length ≤ Numeral.digitLimit ∧
        (Nat.toDigits 10 (-n).natAbs).length ≤ Numeral.digitLimit := by
    decide
  have failed : (run program 10 start).ending = .faulted (.missingLine (.number 99) .goto) := by
    decide +kernel
  obtain ⟨-, -, state, ending, -⟩ := run_renumber (.data read) apart short 10 "7\n"
  rw [renumbered] at state ending
  refine ⟨read, renumbered, failed, ?_, state⟩
  rw [ending, failed]
  rfl

end Machine

end LineBasic
