import LineBasic.Proofs.ReturnStack
import LineBasic.Proofs.WellFormed

/-!
# What can go wrong in a run

A program read from a source text fails in few ways. Its variables hold numbers and
nothing else, in every state of a run: constants are numbers, unset variables count as
zero, and only numbers are read from input. So the operations on other kinds of values,
and the parts that the language does not know, are never reached, and every fault has one
of six causes. Each cause names what the failing statement is, and so what the program
holds.
-/

namespace LineBasic

open Machine

/-! ## Numbers -/

namespace Machine.Store

/-- Every variable that has been set holds a number. -/
def Numeric (store : Store) : Prop := ∀ entry ∈ store.entries, ∃ n, entry.2 = .number n

/-- No variable has been set to anything else at the start. -/
theorem Numeric.empty : Numeric empty := by simp [Numeric, Store.empty]

/-- A variable holds a number, since an unset one counts as zero. -/
theorem Numeric.get {store : Store} (numeric : store.Numeric) (name : Value) :
    ∃ n, store.get name = .number n := by
  obtain ⟨entries⟩ := store
  rw [Store.get]
  induction entries with
  | nil => exact ⟨0, rfl⟩
  | cons entry rest inductionHypothesis =>
    rw [lookup]
    split
    · exact numeric entry List.mem_cons_self
    · exact inductionHypothesis fun other member => numeric other (.tail _ member)

/-- Setting a variable to a number keeps a store numeric. -/
theorem Numeric.set {store : Store} (numeric : store.Numeric) (name : Value) (n : Int) :
    (store.set name (.number n)).Numeric := by
  obtain ⟨entries⟩ := store
  rw [Store.set, Numeric]
  induction entries with
  | nil => simp [replace]
  | cons entry rest inductionHypothesis =>
    have first := numeric entry List.mem_cons_self
    have others : Numeric ⟨rest⟩ := fun other member => numeric other (.tail _ member)
    intro other member
    dsimp only [replace] at member
    split at member
    · rcases List.mem_cons.mp member with rfl | member
      · exact ⟨n, rfl⟩
      · exact others other member
    · rcases List.mem_cons.mp member with rfl | member
      · exact first
      · exact inductionHypothesis others other member

end Machine.Store

/-- Somewhere in the expression there is a division. -/
def Expr.Divides : Expr → Prop
  | .binary op left right => op = .dividedBy ∨ left.Divides ∨ right.Divides
  | .voided _ left right => left.Divides ∨ right.Divides
  | _ => False

/-- Where variables hold numbers, a well-formed expression has a number for its value,
unless it divides by zero. -/
theorem Expr.eval_numeric {expr : Expr} {store : Store} (formed : expr.WellFormed)
    (numeric : store.Numeric) :
    (∃ n, expr.eval store = .ok (.number n)) ∨
      (expr.eval store = .error .divisionByZero ∧ expr.Divides) := by
  induction expr with
  | constant value =>
    obtain ⟨n, rfl, -⟩ := formed
    exact .inl ⟨n, rfl⟩
  | var name =>
    obtain ⟨n, held⟩ := numeric.get name
    exact .inl ⟨n, congrArg Except.ok held⟩
  | binary op left right leftHypothesis rightHypothesis =>
    rw [Expr.eval]
    rcases leftHypothesis formed.1 with ⟨a, leftValue⟩ | ⟨failed, divides⟩
    · rcases rightHypothesis formed.2 with ⟨b, rightValue⟩ | ⟨failed, divides⟩
      · have applied : (do
            let leftValue ← left.eval store
            let rightValue ← right.eval store
            op.apply leftValue rightValue) = op.apply (.number a) (.number b) := by
          rw [leftValue, rightValue]
          rfl
        rw [applied, op.apply_number]
        split
        · next byZero => exact .inr ⟨rfl, .inl byZero.1⟩
        · exact .inl ⟨_, rfl⟩
      · rw [leftValue, failed]
        exact .inr ⟨rfl, .inr (.inr divides)⟩
    · rw [failed]
      exact .inr ⟨rfl, .inr (.inl divides)⟩
  | voided operator left right => exact formed.elim
  | faulty fault => exact formed.elim

/-- The truth of a well-formed condition is known, unless a side divides by zero. -/
theorem Condition.eval_numeric {condition : Condition} {store : Store}
    (formed : condition.WellFormed) (numeric : store.Numeric) :
    (∃ holds, condition.eval store = .ok holds) ∨
      (condition.eval store = .error .divisionByZero ∧
        (condition.left.Divides ∨ condition.right.Divides)) := by
  obtain ⟨leftFormed, ⟨which, isKnown⟩, rightFormed⟩ := formed
  rw [Condition.eval, isKnown]
  rcases Expr.eval_numeric leftFormed numeric with ⟨a, leftValue⟩ | ⟨failed, divides⟩
  · rcases Expr.eval_numeric rightFormed numeric with ⟨b, rightValue⟩ | ⟨failed, divides⟩
    · rw [leftValue, rightValue]
      exact .inl ⟨_, which.holds_number a b⟩
    · rw [leftValue, failed]
      exact .inr ⟨rfl, .inr divides⟩
  · rw [failed]
    exact .inr ⟨rfl, .inl divides⟩

/-! ## Printing -/

/-- The wording of a jump to a number that no line has. -/
theorem Fault.message_missingLine (n : Nat) (jump : Jump) :
    (Fault.missingLine (.number n) jump).message =
      "Linha " ++ n.repr ++ " não encontrada para " ++ jump.word := by
  have wording (target : Value) : (Fault.missingLine target jump).message =
      "Linha " ++ target.shown ++ " não encontrada para " ++ jump.word := rfl
  rw [wording, Value.shown_number]

/-- A number that cannot be written has more digits than the limit. -/
theorem Value.long_of_shown?_eq_none {n : Int} (unwritten : (Value.number n).shown? = none) :
    Numeral.digitLimit < (Nat.toDigits 10 n.natAbs).length := by
  by_contra few
  have short := Numeral.lt_writeBound_iff.mpr (Nat.le_of_not_lt few)
  simp [Value.shown?, Value.writable, short] at unwritten

/-- Where variables hold numbers, a well-formed item is printed as a text, unless it divides
by zero or its value has too many digits. -/
theorem PrintItem.content_numeric {item : PrintItem} {store : Store} (formed : item.WellFormed)
    (numeric : store.Numeric) :
    (∃ text, item.content store = .ok (.text text)) ∨
      ∃ expr, item = .value expr ∧
        ((item.content store = .error .divisionByZero ∧ expr.Divides) ∨
          (item.content store = .error .numeralTooLong ∧
            ∃ n, expr.eval store = .ok (.number n) ∧
              Numeral.digitLimit < (Nat.toDigits 10 n.natAbs).length)) := by
  cases item with
  | text content =>
    obtain ⟨text, rfl, -⟩ := formed
    exact .inl ⟨text, rfl⟩
  | value expr =>
    rcases Expr.eval_numeric formed numeric with ⟨n, value⟩ | ⟨failed, divides⟩
    · cases writing : (Value.number n).shown? with
      | some shown =>
        exact .inl ⟨shown, by simp only [PrintItem.content, value, bind, Except.bind, writing]⟩
      | none =>
        refine .inr ⟨expr, rfl, .inr ⟨?_, n, value, Value.long_of_shown?_eq_none writing⟩⟩
        simp only [PrintItem.content, value, bind, Except.bind, writing]
    · refine .inr ⟨expr, rfl, .inl ⟨?_, divides⟩⟩
      rw [PrintItem.content, failed]
      rfl

/-- Contents that are all texts are joined. -/
theorem Machine.texts_map (position : Nat) (texts : List String) :
    Machine.texts position (texts.map .text) = .ok texts := by
  induction texts generalizing position with
  | nil => rfl
  | cons text texts inductionHypothesis =>
    rw [List.map_cons, Machine.texts, inductionHypothesis]
    rfl

/-- Items of which each has a text for its content, if any, have texts for their contents,
unless one of them fails. -/
theorem Machine.contents_texts {store : Store} {items : List PrintItem}
    (each : ∀ item ∈ items, ∀ content, item.content store = .ok content →
      ∃ text, content = .text text) :
    (∃ texts : List String, items.mapM (PrintItem.content store) = .ok (texts.map .text)) ∨
      ∃ item ∈ items, ∃ fault, item.content store = .error fault ∧
        items.mapM (PrintItem.content store) = .error fault := by
  induction items with
  | nil => exact .inl ⟨[], rfl⟩
  | cons first rest inductionHypothesis =>
    rw [List.mapM_cons]
    cases printed : first.content store with
    | error fault => exact .inr ⟨first, List.mem_cons_self, fault, printed, rfl⟩
    | ok content =>
      obtain ⟨text, rfl⟩ := each first List.mem_cons_self content printed
      rcases inductionHypothesis fun item member => each item (.tail _ member) with
        ⟨texts, joined⟩ | ⟨item, member, fault, failed, stopped⟩
      · rw [joined]
        exact .inl ⟨text :: texts, rfl⟩
      · rw [stopped]
        exact .inr ⟨item, .tail _ member, fault, failed, rfl⟩

/-- A print statement fails only where one of its items does. -/
theorem Machine.printedLine_fails {store : Store} {items : List PrintItem} {fault : Fault}
    (formed : ∀ item ∈ items, item.WellFormed) (numeric : store.Numeric)
    (failed : printedLine store items = .error fault) :
    ∃ item ∈ items, item.content store = .error fault := by
  have each : ∀ item ∈ items, ∀ content, item.content store = .ok content →
      ∃ text, content = .text text := by
    intro item member content printed
    rcases PrintItem.content_numeric (formed item member) numeric with
      ⟨text, same⟩ | ⟨expr, -, ⟨fails, -⟩ | ⟨fails, -⟩⟩
    · rw [printed] at same
      exact ⟨text, Except.ok.inj same⟩
    · rw [printed] at fails
      cases fails
    · rw [printed] at fails
      cases fails
  rw [printedLine] at failed
  rcases contents_texts each with ⟨texts, joined⟩ | ⟨item, member, cause, fails, stopped⟩
  · rw [joined] at failed
    simp [bind, Except.bind, Machine.texts_map] at failed
  · rw [stopped] at failed
    cases failed
    exact ⟨item, member, fails⟩

/-! ## Causes of faults -/

/-- The expressions that a statement may evaluate. -/
def Stmt.exprs : Stmt → List Expr
  | .assign _ value => [value]
  | .print items =>
    items.filterMap fun item =>
      match item with
      | .text _ => none
      | .value expr => some expr
  | .branch condition _ => [condition.left, condition.right]
  | _ => []

/-- The expressions of a well-formed statement are well formed. -/
theorem Stmt.WellFormed.exprs {stmt : Stmt} (formed : stmt.WellFormed) :
    ∀ expr ∈ stmt.exprs, expr.WellFormed := by
  intro expr member
  cases stmt with
  | assign name value =>
    obtain rfl := List.mem_singleton.mp member
    exact formed.2
  | print items =>
    obtain ⟨item, among, isValue⟩ := List.mem_filterMap.mp member
    have itemFormed := formed.2 item among
    cases item with
    | text content => cases isValue
    | value found =>
      cases isValue
      exact itemFormed
  | branch condition target =>
    rcases List.mem_pair.mp member with rfl | rfl
    · exact formed.1.1
    · exact formed.1.2.2
  | _ => cases member

namespace Machine

/-- Why a statement fails in a state, when these are the lines of the input: the fault and
its wording. -/
inductive Cause (program : Program) (input : List (List Char)) (stmt : Stmt) (before : State) :
    Fault → (message : String) → Prop where
  /-- It holds a division. -/
  | division {expr : Expr} (evaluated : expr ∈ stmt.exprs) (divides : expr.Divides) :
      Cause program input stmt before .divisionByZero "Divisão por zero"
  /-- It jumps to a number that no line has. -/
  | missingLine {jump : Jump} {target : Nat} (isJump : stmt.jump? = some (jump, .number target))
      (missing : ∀ line ∈ program, line.number ≠ .number target) :
      Cause program input stmt before (.missingLine (.number target) jump)
        ("Linha " ++ target.repr ++ " não encontrada para " ++ jump.word)
  /-- It returns from no call. -/
  | returnWithoutGosub (isReturn : stmt = .ret) (noReturns : before.returns = []) :
      Cause program input stmt before .returnWithoutGosub "RETURN sem GOSUB correspondente"
  /-- It asks for input when there is none left. -/
  | endOfInput {name : Value} (asks : stmt = .input name) (noReplies : before.feed.replies = []) :
      Cause program input stmt before .endOfInput "EOF when reading a line"
  /-- It asks for input, and the next line is not an integer that can be read. -/
  | notRead {name : Value} {text : List Char} {flaw : Numeral.Flaw} (asks : stmt = .input name)
      (isLine : text ∈ input) (isNext : before.feed.replies.head? = some (reply text))
      (unread : Numeral.read text = .error flaw) :
      Cause program input stmt before (Fault.ofFlaw text flaw) (Fault.ofFlaw text flaw).message
  /-- It prints a number with too many digits. -/
  | tooLong {items : List PrintItem} {expr : Expr} {n : Int} (prints : stmt = .print items)
      (member : .value expr ∈ items) (value : expr.eval before.store = .ok (.number n))
      (long : Numeral.digitLimit < (Nat.toDigits 10 n.natAbs).length) :
      Cause program input stmt before .numeralTooLong Numeral.tooLongMessage

/-- The variables hold numbers, and the input still to come are the last of its lines. -/
structure Sound (input : List (List Char)) (state : State) : Prop where
  numeric : state.store.Numeric
  fed : ∃ rest, rest <:+ input ∧ state.feed = ⟨rest.map reply, .endOfInput⟩

/-- A console begins with no variable set and all input to come. -/
theorem Sound.initial (text : String) :
    Sound (Text.feedLines (Text.unifyBreaks text.toList)) (.initial (Feed.ofText text)) :=
  ⟨Store.Numeric.empty, _, List.suffix_rfl, rfl⟩

/-- A jump fails only if no line has its number. -/
theorem destination_fails {program : Program} {input : List (List Char)} {stmt : Stmt}
    {before : State} {jump : Jump} {target : Value} {fault : Fault}
    (isJump : stmt.jump? = some (jump, target)) (isNumeral : target.IsNumeral)
    (failed : program.destination jump target = .error fault) :
    Cause program input stmt before fault fault.message := by
  obtain ⟨n, rfl, small⟩ := isNumeral
  rw [Program.destination] at failed
  cases found : program.indexOf? (.number n) with
  | some position =>
    rw [found] at failed
    cases failed
  | none =>
    have writable : (Value.number n).writable = true := by
      simpa [Value.writable] using small
    have missing : ∀ line ∈ program, line.number ≠ .number n := by
      intro line member numbered
      refine Program.indexOf?_eq_none found line member ?_
      rw [Value.same_iff, numbered]
    rw [found, Fault.showing, if_pos writable] at failed
    obtain rfl := Except.error.inj failed
    rw [Fault.message_missingLine]
    exact .missingLine isJump missing

/-- What a sound execution comes to: a fault has a cause, and the state left is sound. -/
def Accounted (program : Program) (input : List (List Char)) (stmt : Stmt) (before : State)
    (outcome : Except Fault (Option Int) × State) : Prop :=
  (∀ fault, outcome.1 = .error fault → Cause program input stmt before fault fault.message) ∧
    Sound input outcome.2

namespace Accounted

variable {program : Program} {input : List (List Char)} {stmt : Stmt} {before after : State}

/-- A statement that succeeds has to leave a sound state. -/
theorem ok {next : Option Int} (sound : Sound input after) :
    Accounted program input stmt before (.ok next, after) :=
  ⟨by simp, sound⟩

/-- A statement that fails has to have a cause. -/
theorem error {fault : Fault} (cause : Cause program input stmt before fault fault.message)
    (sound : Sound input after) : Accounted program input stmt before (.error fault, after) := by
  refine ⟨?_, sound⟩
  intro other same
  obtain rfl := Except.error.inj same
  exact cause

end Accounted

/-- Asking for input uses up one line, if there is one. -/
theorem exec_input {program : Program} {input : List (List Char)} {index : Int} {name : Value}
    {state : State} (isName : name.IsName) (sound : Sound input state) :
    Accounted program input (.input name) state (Stmt.exec program index (.input name) state) := by
  obtain ⟨letter, rfl, -⟩ := isName
  obtain ⟨numeric, lines, isLast, feed⟩ := sound
  rw [Stmt.exec, Value.shown?_text]
  dsimp only [State.emit]
  rw [feed]
  cases lines with
  | nil =>
    refine .error (.endOfInput rfl ?_) ⟨numeric, [], isLast, rfl⟩
    rw [feed]
    rfl
  | cons text rest =>
    have further : rest <:+ input := (List.suffix_cons text rest).trans isLast
    cases reading : Numeral.read text with
    | ok n =>
      have replied : reply text = .ok n := by
        rw [reply, reading]
        rfl
      simp only [Feed.next, List.map_cons, replied]
      exact .ok ⟨numeric.set _ n, rest, further, rfl⟩
    | error flaw =>
      have replied : reply text = .error (Fault.ofFlaw text flaw) := by
        rw [reply, reading]
        rfl
      simp only [Feed.next, List.map_cons, replied]
      refine .error (.notRead rfl (isLast.subset List.mem_cons_self) ?_ reading)
        ⟨numeric, rest, further, rfl⟩
      rw [feed]
      rfl

/-- A well-formed statement fails only for one of the causes, and keeps the state sound. -/
theorem exec_accounted {program : Program} {input : List (List Char)} {stmt : Stmt} {state : State}
    (index : Int) (formed : stmt.WellFormed) (sound : Sound input state) :
    Accounted program input stmt state (stmt.exec program index state) := by
  cases stmt with
  | assign name expr =>
    rw [Stmt.exec]
    rcases Expr.eval_numeric formed.2 sound.numeric with ⟨n, value⟩ | ⟨failed, divides⟩
    · rw [value]
      exact .ok ⟨sound.numeric.set name n, sound.fed⟩
    · rw [failed]
      exact .error (.division (by simp [Stmt.exprs]) divides) sound
  | print items =>
    rw [Stmt.exec]
    cases printing : printedLine state.store items with
    | ok text => exact .ok ⟨sound.numeric, sound.fed⟩
    | error fault =>
      obtain ⟨item, member, failed⟩ := printedLine_fails formed.2 sound.numeric printing
      refine .error ?_ sound
      rcases PrintItem.content_numeric (formed.2 item member) sound.numeric with
        ⟨text, printed⟩ | ⟨expr, rfl, ⟨fails, divides⟩ | ⟨fails, n, value, long⟩⟩
      · rw [failed] at printed
        cases printed
      · obtain rfl := Except.error.inj (failed.symm.trans fails)
        have evaluated : expr ∈ (Stmt.print items).exprs :=
          List.mem_filterMap.mpr ⟨_, member, rfl⟩
        exact .division evaluated divides
      · obtain rfl := Except.error.inj (failed.symm.trans fails)
        exact .tooLong rfl member value long
  | input name => exact exec_input formed sound
  | branch condition target =>
    rw [Stmt.exec]
    rcases Condition.eval_numeric formed.1 sound.numeric with ⟨holds, value⟩ | ⟨failed, divides⟩
    · rw [value]
      cases holds with
      | true => exact ⟨fun fault failed => destination_fails rfl formed.2 failed, sound⟩
      | false => exact .ok sound
    · rw [failed]
      rcases divides with divides | divides
      · exact .error (.division (by simp [Stmt.exprs]) divides) sound
      · exact .error (.division (by simp [Stmt.exprs]) divides) sound
  | goto target => exact ⟨fun fault failed => destination_fails rfl formed failed, sound⟩
  | gosub target =>
    exact ⟨fun fault failed => destination_fails rfl formed failed, sound.numeric, sound.fed⟩
  | ret =>
    rw [Stmt.exec]
    cases noted : state.returns with
    | nil => exact .error (.returnWithoutGosub rfl noted) sound
    | cons back rest => exact .ok ⟨sound.numeric, sound.fed⟩
  | stop => exact .ok ⟨sound.numeric, sound.fed⟩
  | remark => exact .ok sound
  | faulty fault => exact formed.elim

/-! ## Runs -/

/-- Throughout the run of a well-formed program the state is sound. -/
theorem trace_sound {program : Program} (formed : program.WellFormed) (limit : Nat)
    (text : String) :
    let start := State.initial (Feed.ofText text)
    let input := Text.feedLines (Text.unifyBreaks text.toList)
    ∀ done, done <+: trace program limit start →
      (∀ execution ∈ done, execution.stmt.WellFormed ∧ Sound input execution.before) ∧
        Sound input (stateAfter start done) := by
  intro start input done first
  have wellFormed : ∀ execution ∈ done, execution.stmt.WellFormed := by
    intro execution member
    obtain ⟨line, isLine, among⟩ := stmt_of_mem_trace (first.subset member)
    exact (formed line isLine).statements execution.stmt among
  have leads := (runFrom_records program limit 0 start).leads.upTo first
  obtain ⟨each, ends⟩ := leads.invariant (Sound.initial text) fun execution member sound =>
    (exec_accounted execution.index (wellFormed execution member) sound).2
  exact ⟨fun execution member => ⟨wellFormed execution member, (each execution member).1⟩, ends⟩

/-- What can go wrong in the run of a program that was read from a source text. A fault comes
from the last statement executed, which is a statement of the program, and has one of the
causes. Every expression that a statement may evaluate has a number for its value unless it
divides by zero, and in every state that the run passes through the variables hold numbers;
so neither unknown parts nor values of other kinds are ever met.

The invariant is that the variables hold numbers and that the replies to come are those of the
input. One statement keeps it, and fails only for one of the causes; both are shown by cases over
the statements. The trace of the run carries the invariant to every state, and the last entry of the
trace has the fault. -/
theorem run_fault_causes {source : String} {program : Program}
    (accepted : Source.program source = .ok program) (limit : Nat) (text : String) :
    let start := State.initial (Feed.ofText text)
    let input := Text.feedLines (Text.unifyBreaks text.toList)
    (run program limit start).Records start (lineRuns program limit 0 start) ∧
    (∀ fault, (run program limit start).ending = .faulted fault →
      ∃ last ∈ (trace program limit start).getLast?,
        (∃ line ∈ program, last.stmt ∈ line.statements) ∧
        Cause program input last.stmt last.before fault fault.message) ∧
    (∀ execution ∈ trace program limit start, execution.stmt.WellFormed ∧
      ∀ expr ∈ execution.stmt.exprs,
        (∃ n, expr.eval execution.before.store = .ok (.number n)) ∨
          (expr.eval execution.before.store = .error .divisionByZero ∧ expr.Divides)) ∧
    ∀ done, done <+: trace program limit start → (stateAfter start done).store.Numeric := by
  intro start input
  have formed := Source.program_wellFormed accepted
  have sound := trace_sound formed limit text
  refine ⟨runFrom_records program limit 0 start, ?_, ?_, ?_⟩
  · intro fault faulted
    obtain ⟨last, isLast, gave⟩ := run_faulted faulted
    have member := List.mem_of_getLast? isLast
    obtain ⟨wellFormed, soundBefore⟩ := (sound _ List.prefix_rfl).1 last member
    refine ⟨last, isLast, stmt_of_mem_trace member, ?_⟩
    exact (exec_accounted last.index wellFormed soundBefore).1 fault gave
  · intro execution member
    obtain ⟨wellFormed, soundBefore⟩ := (sound _ List.prefix_rfl).1 execution member
    refine ⟨wellFormed, ?_⟩
    intro expr evaluated
    exact Expr.eval_numeric (wellFormed.exprs expr evaluated) soundBefore.numeric
  · intro done first
    exact (sound done first).2.numeric

/-- An unset variable counts as zero, so dividing by one is a division by zero. -/
theorem run_fault_causes_unset :
    let source := "10 PRINT \"X\"\n20 IF A = 7 / B THEN 10\n"
    let program : Program := [⟨.number 10, [.print [.text (.text "X")]]⟩,
      ⟨.number 20, [.branch ⟨.var (.text "A"), .known .equal,
        .binary .dividedBy (.constant (.number 7)) (.var (.text "B"))⟩ (.number 10)]⟩]
    let start := State.initial (Feed.ofText "")
    Source.program source = .ok program ∧
      (run program 3 start).ending = .faulted .divisionByZero ∧
      ∃ last ∈ (trace program 3 start).getLast?, (∃ line ∈ program, last.stmt ∈ line.statements) ∧
        Cause program [] last.stmt last.before .divisionByZero "Divisão por zero" := by
  intro source program start
  have accepted : Source.program source = .ok program := by decide +kernel
  have faulted : (run program 3 start).ending = .faulted .divisionByZero := by decide
  exact ⟨accepted, faulted, (run_fault_causes accepted 3 "").2.1 _ faulted⟩

end Machine

end LineBasic
