import LineBasic.Program.Data
import LineBasic.Proofs.GrammarCompleteness
import LineBasic.Proofs.Layout

/-!
# Faults that name no line

Only a jump without a destination has a fault that names a line of the program. Arithmetic,
comparisons, printing and input have other faults, and so have the parts of a program given as
data that the language does not know. So whatever a statement of a given program may raise by
itself, in a run that is fed from a console, is the same for every numbering of the lines.
-/

namespace LineBasic

open Machine

/-- A fault that names no line. -/
def Fault.Plain : Fault → Prop
  | .missingLine _ _ => False
  | _ => True

/-- To show a value may fail, but names no line. -/
theorem Fault.Plain.showing {fault : Fault} (plain : fault.Plain) (value : Value) :
    (Fault.showing value fault).Plain := by
  unfold Fault.showing
  split
  · exact plain
  · trivial

/-- A result which is no fault that names a line. -/
def FailsPlainly {α : Type} : Except Fault α → Prop
  | .ok _ => True
  | .error fault => fault.Plain

namespace FailsPlainly

variable {α β : Type} {result : Except Fault α}

/-- The fault of such a result names no line. -/
theorem plain (plainly : FailsPlainly result) {fault : Fault} (failed : result = .error fault) :
    fault.Plain := by
  subst failed
  exact plainly

/-- Steps in sequence name no line if none of them does. -/
theorem bind {next : α → Except Fault β} (plainly : FailsPlainly result)
    (further : ∀ value, FailsPlainly (next value)) : FailsPlainly (result >>= next) := by
  cases result with
  | ok value => exact further value
  | error fault => exact plainly

/-- To change the value of a result does not change its fault. -/
theorem map (plainly : FailsPlainly result) (change : α → β) :
    FailsPlainly (result.map change) := by
  cases result with
  | ok value => trivial
  | error fault => exact plainly

/-- Neither do steps over a list name a line, if none of them does. -/
theorem mapM {part : β → Except Fault α} {parts : List β}
    (each : ∀ value ∈ parts, FailsPlainly (part value)) : FailsPlainly (parts.mapM part) := by
  induction parts with
  | nil => trivial
  | cons first rest inductionHypothesis =>
    obtain ⟨here, others⟩ := List.forall_mem_cons.mp each
    rw [List.mapM_cons]
    exact here.bind fun _ => (inductionHypothesis others).bind fun _ => trivial

end FailsPlainly

/-! ## Operations on values -/

/-- Repeating a text or a record names no line. -/
theorem Value.repeated_plainly (sequence : Value) (count : Int) :
    FailsPlainly (sequence.repeated count) := by
  fun_cases Value.repeated sequence count <;> exact True.intro

/-- Arithmetic names no line. -/
theorem ArithOp.apply_plainly (op : ArithOp) (left right : Value) :
    FailsPlainly (op.apply left right) := by
  cases op with
  | plus =>
    change FailsPlainly (left.plus right)
    fun_cases Value.plus left right <;> trivial
  | minus =>
    change FailsPlainly (left.minus right)
    fun_cases Value.minus left right <;> trivial
  | times =>
    change FailsPlainly (left.times right)
    fun_cases Value.times left right <;> first | trivial | exact Value.repeated_plainly _ _
  | dividedBy =>
    change FailsPlainly (left.dividedBy right)
    fun_cases Value.dividedBy left right <;> trivial

/-- The order of plain values names no line. -/
theorem Value.orderedPlain_plainly (comparison : Comparison) (left right : Value) :
    FailsPlainly (orderedPlain comparison left right) := by
  fun_cases orderedPlain comparison left right <;> trivial

mutual

/-- The order of values names no line, whatever records they hold. -/
theorem Value.ordered_plainly (comparison : Comparison) :
    (left right : Value) → FailsPlainly (ordered comparison left right)
  | .record left, right => by
    cases right with
    | record right => exact orderedAll_plainly comparison left right
    | absent => exact orderedPlain_plainly comparison (.record left) .absent
    | truth holds => exact orderedPlain_plainly comparison (.record left) (.truth holds)
    | number n => exact orderedPlain_plainly comparison (.record left) (.number n)
    | text content => exact orderedPlain_plainly comparison (.record left) (.text content)
  | .absent, right => orderedPlain_plainly comparison .absent right
  | .truth holds, right => orderedPlain_plainly comparison (.truth holds) right
  | .number n, right => orderedPlain_plainly comparison (.number n) right
  | .text content, right => orderedPlain_plainly comparison (.text content) right

/-- The order of lists of values names no line. -/
theorem Value.orderedAll_plainly (comparison : Comparison) :
    (left right : List Value) → FailsPlainly (orderedAll comparison left right)
  | [], [] => trivial
  | [], _ :: _ => trivial
  | _ :: _, [] => trivial
  | left :: lefts, right :: rights => by
    rw [orderedAll]
    split
    · exact orderedAll_plainly comparison lefts rights
    · exact ordered_plainly comparison left right

end

/-- Comparisons name no line. -/
theorem Comparison.holds_plainly (comparison : Comparison) (left right : Value) :
    FailsPlainly (comparison.holds left right) := by
  unfold Comparison.holds
  split
  · trivial
  · trivial
  · exact Value.ordered_plainly comparison left right

/-! ## Expressions and statements -/

/-- The parts that the language does not know are faults that name no line. -/
def Expr.Plain : Expr → Prop
  | .constant _ | .var _ => True
  | .binary _ left right | .voided _ left right => left.Plain ∧ right.Plain
  | .faulty fault => fault.Plain

/-- Both sides are plain. -/
def Condition.Plain (condition : Condition) : Prop :=
  condition.left.Plain ∧ condition.right.Plain

/-- An expression is plain. -/
def PrintItem.Plain : PrintItem → Prop
  | .text _ => True
  | .value expr => expr.Plain

/-- The parts are plain, and so is the fault that stands for the statement if the language does
not know it. -/
def Stmt.Plain : Stmt → Prop
  | .assign _ value => value.Plain
  | .print items => ∀ item ∈ items, item.Plain
  | .branch condition _ => condition.Plain
  | .faulty fault => fault.Plain
  | .input _ | .goto _ | .gosub _ | .ret | .stop | .remark => True

/-- Every statement is plain. -/
def Program.Plain (program : Program) : Prop :=
  ∀ line ∈ program, ∀ stmt ∈ line.statements, stmt.Plain

/-- The value of a plain expression is no fault that names a line. -/
theorem Expr.Plain.eval {expr : Expr} (plain : expr.Plain) (store : Store) :
    FailsPlainly (expr.eval store) := by
  induction expr with
  | constant value => trivial
  | var name => trivial
  | binary op left right leftPlainly rightPlainly =>
    exact (leftPlainly plain.1).bind fun leftValue => (rightPlainly plain.2).bind fun rightValue =>
      op.apply_plainly leftValue rightValue
  | voided operator left right leftPlainly rightPlainly =>
    exact (leftPlainly plain.1).bind fun _ => (rightPlainly plain.2).bind fun _ => trivial
  | faulty fault => exact plain

/-- Nor is the truth of a condition. -/
theorem Condition.Plain.eval {condition : Condition} (plain : condition.Plain) (store : Store) :
    FailsPlainly (condition.eval store) := by
  refine (Expr.Plain.eval plain.1 store).bind fun left => ?_
  refine (Expr.Plain.eval plain.2 store).bind fun right => ?_
  cases condition.relation with
  | known comparison => exact comparison.holds_plainly left right
  | unlisted tag =>
    have plain : (Fault.unlistedRelation tag).Plain := trivial
    exact plain.showing tag

/-- Nor is what is to be printed. -/
theorem PrintItem.Plain.content {item : PrintItem} (plain : item.Plain) (store : Store) :
    FailsPlainly (item.content store) := by
  cases item with
  | text content => trivial
  | value expr =>
    refine (Expr.Plain.eval plain store).bind fun value => ?_
    split <;> trivial

namespace Machine

/-- To gather printed texts names no line. -/
theorem texts_plainly (position : Nat) (contents : List Value) :
    FailsPlainly (texts position contents) := by
  fun_induction texts position contents with
  | case1 => trivial
  | case2 position content rest inductionHypothesis => exact inductionHypothesis.map _
  | case3 => trivial

/-- To print names no line, if no item does. -/
theorem printedLine_plainly {items : List PrintItem} (plain : ∀ item ∈ items, item.Plain)
    (store : Store) : FailsPlainly (printedLine store items) := by
  have contents := FailsPlainly.mapM fun item among => (plain item among).content store
  exact contents.bind fun values => (texts_plainly 0 values).bind fun _ => trivial

/-- No reply of the feed is a fault that names a line. -/
structure Feed.Plain (feed : Feed) : Prop where
  replies : ∀ reply ∈ feed.replies, FailsPlainly reply
  atEnd : feed.atEnd.Plain

/-- The feed of a console is plain. -/
theorem Feed.Plain.ofText (text : String) : (Feed.ofText text).Plain := by
  refine ⟨?_, trivial⟩
  intro given member
  obtain ⟨line, -, rfl⟩ := List.mem_map.mp member
  unfold reply
  cases Numeral.read line with
  | ok n => trivial
  | error flaw => cases flaw <;> trivial

/-- The next reply is plain, and so is the rest. -/
theorem Feed.Plain.next {feed : Feed} (plain : feed.Plain) :
    FailsPlainly feed.next.1 ∧ feed.next.2.Plain := by
  obtain ⟨replies, atEnd⟩ := feed
  cases replies with
  | nil => exact ⟨plain.atEnd, plain⟩
  | cons reply rest =>
    obtain ⟨first, others⟩ := List.forall_mem_cons.mp plain.replies
    exact ⟨first, others, plain.atEnd⟩

/-- The faults that a plain statement may have by itself name no line. -/
theorem Raises.plain {state : State} {stmt : Stmt} {fault : Fault}
    (raises : Raises state stmt fault) (plain : stmt.Plain) (fed : state.feed.Plain) :
    fault.Plain := by
  cases raises with
  | assign failed => exact (Expr.Plain.eval plain state.store).plain failed
  | print failed => exact (printedLine_plainly plain state.store).plain failed
  | unshown name => trivial
  | input failed => exact fed.next.1.plain failed
  | branch failed => exact (Condition.Plain.eval plain state.store).plain failed
  | ret => trivial
  | faulty fault => exact plain

/-- A statement leaves a plain feed plain. -/
theorem Feed.Plain.exec {state : State} (fed : state.feed.Plain) (program : Program) (index : Int)
    (stmt : Stmt) : (stmt.exec program index state).2.feed.Plain := by
  have rest {given : Except Fault Int} {feed : Feed} (replied : state.feed.next = (given, feed)) :
      feed.Plain := by
    have plain := fed.next.2
    rwa [replied] at plain
  -- Only an input statement, with an integer for its reply or with a fault, uses up a reply.
  fun_cases Stmt.exec program index stmt state with
  | case6 name shown isShown asked n feed replied => exact rest replied
  | case7 name shown isShown asked fault feed replied => exact rest replied
  | _ => exact fed

/-- So does a line. -/
theorem Feed.Plain.execLine {state : State} (fed : state.feed.Plain) (program : Program)
    (index : Int) : (program.execLine index state).2.feed.Plain := by
  let Fed (state : State) : Prop := state.feed.Plain
  let run : LineRun program := ⟨index, state⟩
  have keeps : ∀ execution ∈ run.executions, Fed execution.before → Fed execution.after :=
    fun execution _ fed => Feed.Plain.exec fed program execution.index execution.stmt
  exact (run.leads.invariant (show Fed run.before from fed) keeps).2

end Machine

/-! ## Programs that are given -/

namespace Value

/-- Data with too few or too many parts names no line. -/
theorem separationFault_plain (expected : Nat) (value : Value) :
    (value.separationFault expected).Plain := by
  fun_cases separationFault expected value <;> trivial

/-- Data without a known tag names no line, if the fault for the tag does not. -/
theorem untagged_plain (value : Value) (unlisted : Value → Fault)
    (plain : (unlisted value).Plain) : (value.untagged unlisted).Plain := by
  fun_cases untagged unlisted value
  · trivial
  · trivial
  · exact plain.showing value

end Value

/-- Whatever is read as an expression is plain. -/
theorem Expr.ofValue_plain (node : Value) : (Expr.ofValue node).Plain := by
  fun_induction Expr.ofValue node with
  | case1 operator left right op found leftPlain rightPlain => exact ⟨leftPlain, rightPlain⟩
  | case2 operator left right unknown leftPlain rightPlain => exact ⟨leftPlain, rightPlain⟩
  | case3 parts => exact Value.separationFault_plain 4 _
  | case8 node => exact node.untagged_plain .unlistedExpression trivial
  | _ => trivial

/-- So is whatever is read as a condition. -/
theorem Condition.ofValue_plain (node : Value) : (Condition.ofValue node).Plain := by
  unfold Condition.ofValue
  split
  · exact ⟨Expr.ofValue_plain _, Expr.ofValue_plain _⟩
  · exact ⟨Value.separationFault_plain 4 node, trivial⟩

/-- So is whatever is read as a printed item. -/
theorem PrintItem.ofValue_plain (node : Value) : (PrintItem.ofValue node).Plain := by
  unfold PrintItem.ofValue
  split
  · trivial
  · trivial
  · exact Expr.ofValue_plain node

/-- So is whatever is read as a statement. -/
theorem Stmt.ofValue_plain (node : Value) : (Stmt.ofValue node).Plain := by
  fun_cases Stmt.ofValue node with
  | case1 name value => exact Expr.ofValue_plain value
  | case2 items parts =>
    intro item member
    obtain ⟨part, -, rfl⟩ := List.mem_map.mp member
    exact PrintItem.ofValue_plain part
  | case5 condition target => exact Condition.ofValue_plain condition
  | case11 tag parts => exact Value.separationFault_plain _ _
  | case12 tag parts => exact Value.untagged_plain _ .unlistedStatement trivial
  | case13 => exact node.untagged_plain .unlistedStatement trivial
  | _ => trivial

/-- So are the statements of whatever is read as a line. -/
theorem Line.ofValue_plain {node : Value} {line : Line} (accepted : Line.ofValue node = .ok line) :
    ∀ stmt ∈ line.statements, stmt.Plain := by
  unfold Line.ofValue at accepted
  split at accepted
  · next tag number body _ =>
    cases accepted
    unfold Stmt.allOfValue
    split
    · intro stmt member
      obtain ⟨part, -, rfl⟩ := List.mem_map.mp member
      exact Stmt.ofValue_plain part
    · exact List.forall_mem_singleton.mpr trivial
  · cases accepted

/-- So is every program given as lines of data. -/
theorem Program.ofLines_plain {nodes : List Value} {program : Program}
    (accepted : nodes.mapM Line.ofValue = .ok program) : program.Plain := by
  induction nodes generalizing program with
  | nil =>
    cases accepted
    exact List.forall_mem_nil _
  | cons node nodes inductionHypothesis =>
    rw [List.mapM_cons] at accepted
    cases first : Line.ofValue node with
    | error fault =>
      rw [first] at accepted
      cases accepted
    | ok line =>
      cases others : nodes.mapM Line.ofValue with
      | error fault =>
        rw [first, others] at accepted
        cases accepted
      | ok lines =>
        rw [first, others] at accepted
        cases accepted
        exact List.forall_mem_cons.mpr ⟨Line.ofValue_plain first, inductionHypothesis others⟩

namespace Program.Grammar

/-- Written expressions hold no faults at all. -/
theorem Expression.plain {level : Level} {tokens : List Token} {value : Expr}
    (written : Expression level tokens value) : value.Plain := by
  induction written with
  | number isNumber => trivial
  | name isName => trivial
  | parentheses opens inside closes inductionHypothesis => exact inductionHypothesis
  | factor alone inductionHypothesis => exact inductionHypothesis
  | product chain signed multiplies last chainPlain lastPlain => exact ⟨chainPlain, lastPlain⟩
  | term alone inductionHypothesis => exact inductionHypothesis
  | sum chain signed adds last chainPlain lastPlain => exact ⟨chainPlain, lastPlain⟩

/-- An item to print that is written in tokens has no fault in it that names a line. -/
theorem Item.plain {tokens : List Token} {item : PrintItem} (written : Item tokens item) :
    item.Plain := by
  cases written with
  | string isString => trivial
  | expression written => exact written.plain

/-- Nor has a statement that is written in tokens. -/
theorem Statement.plain {tokens : List Token} {stmt : Stmt} (written : Statement tokens stmt) :
    stmt.Plain := by
  cases written with
  | assign begins isName isEquals written => exact written.plain
  | print begins listed => exact listed.forall Item.plain
  | branch begins leftSide compares rightSide isThen isNumber =>
    exact ⟨leftSide.plain, rightSide.plain⟩
  | _ => trivial

/-- Nor have the statements of a line. -/
theorem NumberedLine.plain {tokens : List Token} {line : Line}
    (written : NumberedLine tokens line) : ∀ stmt ∈ line.statements, stmt.Plain := by
  cases written with
  | intro isNumber body => exact body.forall Statement.plain

end Program.Grammar

/-- A program is given by tokens or as data. -/
inductive Program.Given (program : Program) : Prop where
  | read {tokens : List Token} (accepted : Program.ofTokens tokens = .ok program) : Given program
  | data {node : Value} (accepted : Program.ofValue node = .ok program) : Given program

/-- Every program that is given is plain. -/
theorem Program.Given.plain {program : Program} (given : program.Given) : program.Plain := by
  cases given with
  | read accepted =>
    have written := (Grammar.ofTokens_eq_ok_iff _ program).mp accepted
    exact written.forall Grammar.NumberedLine.plain
  | data accepted =>
    unfold Program.ofValue at accepted
    split at accepted
    · exact ofLines_plain accepted
    · cases accepted

end LineBasic
