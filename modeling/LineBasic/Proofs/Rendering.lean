import LineBasic.Proofs.WellFormed
import Mathlib.Data.List.Forall2

/-!
# Rendering programs

A rendering writes a program as source text: every line on a line of its own, its words
separated by one space and its statements by colons. Around a colon, and in front of a
line end, there may be a space or none.

An operand is enclosed in parentheses at least where it has to be. What has to be
enclosed is said by strength, not by the grammar: multiplication binds its operands more
tightly than addition, and nothing binds more tightly than what stands alone or is
enclosed already. The left operand must not bind more loosely than the operator, and the
right operand has to bind more tightly. Further parentheses may stand around any part.

Among the renderings of a well-formed program is one with as few parentheses and spaces
as possible, and it can be computed.
-/

namespace LineBasic

/-! ## Renderings -/

/-- How tightly an operator binds its operands. -/
def ArithOp.strength : ArithOp → Nat
  | .plus | .minus => 1
  | .times | .dividedBy => 2

/-- The words render the expression, and what stands outermost binds with the strength. -/
inductive Expr.Rendered : Expr → (strength : Nat) → (words : List String) → Prop where
  | constant (n : Nat) : Rendered (.constant (.number n)) 3 [n.repr]
  | var (name : String) : Rendered (.var (.text name)) 3 [name]
  | enclosed {expr : Expr} {strength : Nat} {words : List String}
      (inside : Rendered expr strength words) : Rendered expr 3 ("(" :: (words ++ [")"]))
  | binary {op : ArithOp} {left right : Expr} {leftStrength rightStrength : Nat}
      {first second : List String} (leftSide : Rendered left leftStrength first)
      (leftHolds : op.strength ≤ leftStrength) (rightSide : Rendered right rightStrength second)
      (rightHolds : op.strength < rightStrength) :
      Rendered (.binary op left right) op.strength (first ++ op.spelling :: second)

/-- The words render what is printed; a text stands between quotes. -/
inductive PrintItem.Rendered : PrintItem → List String → Prop where
  | text (content : String) : Rendered (.text (.text content)) ["\"" ++ content ++ "\""]
  | value {expr : Expr} {strength : Nat} {words : List String}
      (written : expr.Rendered strength words) : Rendered (.value expr) words

/-- The words render the statement. A comment may say anything up to the end of the line. -/
inductive Stmt.Rendered : Stmt → List String → Prop where
  | assign (name : String) {value : Expr} {strength : Nat} {words : List String}
      (written : value.Rendered strength words) :
      Rendered (.assign (.text name) value) ("LET" :: name :: "=" :: words)
  | print {items : List PrintItem} {parts : List (List String)}
      (written : List.Forall₂ PrintItem.Rendered items parts) :
      Rendered (.print items) ("PRINT" :: [","].intercalate parts)
  | input (name : String) : Rendered (.input (.text name)) ["INPUT", name]
  | branch {left right : Expr} {leftStrength rightStrength : Nat} {first second : List String}
      (leftSide : left.Rendered leftStrength first) (which : Comparison)
      (rightSide : right.Rendered rightStrength second) (target : Nat) :
      Rendered (.branch ⟨left, .known which, right⟩ (.number target))
        ("IF" :: (first ++ which.spelling :: (second ++ ["THEN", target.repr])))
  | goto (target : Nat) : Rendered (.goto (.number target)) ["GOTO", target.repr]
  | gosub (target : Nat) : Rendered (.gosub (.number target)) ["GOSUB", target.repr]
  | ret : Rendered .ret ["RETURN"]
  | stop : Rendered .stop ["END"]
  | remark {comment : String} (onLine : '\n' ∉ comment.toList) :
      Rendered .remark ["REM" ++ comment]

/-- What may stand around a colon. -/
def Gap (text : String) : Prop := text = "" ∨ text = " "

/-- The text renders the statements of a line. -/
inductive Line.BodyRendered : List Stmt → String → Prop where
  | last {stmt : Stmt} {words : List String} {after : String} (written : stmt.Rendered words)
      (gapAfter : Gap after) : BodyRendered [stmt] (" ".intercalate words ++ after)
  | more {stmt : Stmt} {stmts : List Stmt} {words : List String} {before after text : String}
      (written : stmt.Rendered words) (gapBefore : Gap before) (gapAfter : Gap after)
      (rest : BodyRendered stmts text) :
      BodyRendered (stmt :: stmts) (" ".intercalate words ++ before ++ ":" ++ after ++ text)

/-- The text renders the line, up to and including its end. -/
inductive Line.Rendered : Line → String → Prop where
  | intro (number : Nat) {statements : List Stmt} {text : String}
      (body : Line.BodyRendered statements text) :
      Rendered ⟨.number number, statements⟩ (number.repr ++ " " ++ text ++ "\n")

/-- The text renders the program. -/
def Program.Rendered (program : Program) (text : String) : Prop :=
  ∃ lines, List.Forall₂ Line.Rendered program lines ∧ text = String.join lines

/-! ## The shortest rendering -/

/-- The word for a number or a name. -/
def Value.word : Value → String
  | .number n => n.toNat.repr
  | .text content => content
  | _ => ""

/-- The words of an expression that has to bind with a strength at least, with parentheses
only where they are needed. Expressions that cannot be written have no words. -/
def Expr.words : Expr → (least : Nat) → List String
  | .constant value, _ => [value.word]
  | .var name, _ => [name.word]
  | .binary op left right, least =>
    let bare := left.words op.strength ++ op.spelling :: right.words (op.strength + 1)
    if op.strength < least then "(" :: (bare ++ [")"]) else bare
  | .voided .., _ => []
  | .faulty _, _ => []

/-- The words of what is printed. -/
def PrintItem.words : PrintItem → List String
  | .text content => ["\"" ++ content.word ++ "\""]
  | .value expr => expr.words 0

/-- The word for a relation. -/
def Relation.word : Relation → String
  | .known which => which.spelling
  | .unlisted _ => ""

/-- The words of a statement. -/
def Stmt.words : Stmt → List String
  | .assign name value => "LET" :: name.word :: "=" :: value.words 0
  | .print items => "PRINT" :: [","].intercalate (items.map PrintItem.words)
  | .input name => ["INPUT", name.word]
  | .branch condition target =>
    "IF" :: (condition.left.words 0 ++ condition.relation.word ::
      (condition.right.words 0 ++ ["THEN", target.word]))
  | .goto target => ["GOTO", target.word]
  | .gosub target => ["GOSUB", target.word]
  | .ret => ["RETURN"]
  | .stop => ["END"]
  | .remark => ["REM"]
  | .faulty _ => []

/-- The statements of a line, with nothing around the colons. -/
def Line.body : List Stmt → String
  | [] => ""
  | [stmt] => " ".intercalate stmt.words
  | stmt :: stmts => " ".intercalate stmt.words ++ ":" ++ Line.body stmts

/-- One line of source text, with its end. -/
def Line.render (line : Line) : String :=
  line.number.word ++ " " ++ Line.body line.statements ++ "\n"

/-- A program as source text. -/
def Program.render (program : Program) : String := String.join (program.map Line.render)

/-- Parentheses stand only where grouping to the left and the strength of operators do not
already say what is meant. -/
example : Program.render [⟨.number 10, [.print [.value (.binary .minus (.binary .minus
      (.var (.text "A")) (.constant (.number 1)))
      (.binary .minus (.var (.text "B")) (.constant (.number 2))))], .stop]⟩] =
    "10 PRINT A - 1 - ( B - 2 ):END\n" := by
  decide

/-! ## The shortest rendering is a rendering -/

/-- The words of a well-formed expression render it, with at least the strength asked for. -/
theorem Expr.words_rendered {expr : Expr} (formed : expr.WellFormed) {least : Nat}
    (possible : least ≤ 3) :
    ∃ strength, least ≤ strength ∧ expr.Rendered strength (expr.words least) := by
  induction expr generalizing least with
  | constant value =>
    obtain ⟨n, rfl, -⟩ := formed
    exact ⟨3, possible, .constant n⟩
  | var name =>
    obtain ⟨letter, rfl, -⟩ := formed
    exact ⟨3, possible, .var _⟩
  | binary op left right leftHypothesis rightHypothesis =>
    have weak : op.strength < 3 := by cases op <;> decide
    obtain ⟨leftStrength, leftHolds, leftSide⟩ := leftHypothesis formed.1 (Nat.le_of_lt weak)
    obtain ⟨rightStrength, rightHolds, rightSide⟩ := rightHypothesis formed.2 weak
    have bare := Rendered.binary leftSide leftHolds rightSide rightHolds
    rw [Expr.words]
    by_cases loose : op.strength < least
    · simp only [if_pos loose]
      exact ⟨3, possible, .enclosed bare⟩
    · simp only [if_neg loose]
      exact ⟨op.strength, Nat.le_of_not_lt loose, bare⟩
  | voided operator left right => exact formed.elim
  | faulty fault => exact formed.elim

/-- The words of a well-formed printed item render it. -/
theorem PrintItem.words_rendered {item : PrintItem} (formed : item.WellFormed) :
    item.Rendered item.words := by
  cases item with
  | text content =>
    obtain ⟨text, rfl, -⟩ := formed
    exact .text text
  | value expr =>
    obtain ⟨strength, -, written⟩ := Expr.words_rendered formed (Nat.zero_le 3)
    exact .value written

/-- The words of a well-formed statement render it. -/
theorem Stmt.words_rendered {stmt : Stmt} (formed : stmt.WellFormed) :
    stmt.Rendered stmt.words := by
  cases stmt with
  | assign name value =>
    obtain ⟨⟨letter, rfl, -⟩, valueFormed⟩ := formed
    obtain ⟨strength, -, written⟩ := Expr.words_rendered valueFormed (Nat.zero_le 3)
    exact .assign _ written
  | print items =>
    refine .print (List.forall₂_map_right_iff.mpr (List.forall₂_same.mpr ?_))
    intro item member
    exact PrintItem.words_rendered (formed.2 item member)
  | input name =>
    obtain ⟨letter, rfl, -⟩ := formed
    exact .input _
  | branch condition target =>
    obtain ⟨left, relation, right⟩ := condition
    obtain ⟨⟨leftFormed, ⟨which, rfl⟩, rightFormed⟩, n, rfl, -⟩ := formed
    obtain ⟨leftStrength, -, leftSide⟩ := Expr.words_rendered leftFormed (Nat.zero_le 3)
    obtain ⟨rightStrength, -, rightSide⟩ := Expr.words_rendered rightFormed (Nat.zero_le 3)
    exact .branch leftSide which rightSide n
  | goto target =>
    obtain ⟨n, rfl, -⟩ := formed
    exact .goto n
  | gosub target =>
    obtain ⟨n, rfl, -⟩ := formed
    exact .gosub n
  | ret => exact .ret
  | stop => exact .stop
  | remark =>
    have onLine : '\n' ∉ "".toList := by simp
    exact .remark onLine
  | faulty fault => exact formed.elim

/-- The body of a line renders its statements, if there are any. -/
theorem Line.body_rendered {statements : List Stmt} (filled : statements ≠ [])
    (formed : ∀ stmt ∈ statements, stmt.WellFormed) :
    Line.BodyRendered statements (Line.body statements) := by
  induction statements with
  | nil => exact absurd rfl filled
  | cons stmt stmts inductionHypothesis =>
    have written := Stmt.words_rendered (formed stmt List.mem_cons_self)
    cases stmts with
    | nil =>
      have body := BodyRendered.last written (.inl rfl : Gap "")
      rwa [String.append_empty] at body
    | cons next others =>
      have rest := inductionHypothesis (List.cons_ne_nil _ _)
        fun other member => formed other (.tail _ member)
      have body := BodyRendered.more written (.inl rfl : Gap "") (.inl rfl : Gap "") rest
      rwa [String.append_empty, String.append_empty] at body

/-- A well-formed program is rendered by its shortest rendering. -/
theorem Program.render_rendered {program : Program} (formed : program.WellFormed) :
    program.Rendered program.render := by
  refine ⟨program.map Line.render, ?_, rfl⟩
  refine List.forall₂_map_right_iff.mpr (List.forall₂_same.mpr ?_)
  rintro ⟨number, statements⟩ member
  obtain ⟨⟨n, rfl, -⟩, filled, stmtsFormed, -⟩ := formed _ member
  exact .intro n (Line.body_rendered filled stmtsFormed)

end LineBasic
