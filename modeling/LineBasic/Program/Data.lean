import LineBasic.Program.Basic

/-!
# Programs given as data

A program can be given as a record of lines, each a record that holds, after a tag,
the number of the line and its statements. Statements and expressions are records
that begin with a tag from which their form is known.

Data of another shape is read all the same, as the fault that reaching it causes.
Forms that are taken apart must have exactly their number of parts; constants, names
and printed texts are looked up as the part after the tag, so further parts do not
matter; and statements of one word are known by their tag alone. A text has its
characters for parts, and a part that is a text of any kind has a character for its
tag, which is never that of a form.

Only the shape of the lines themselves is required at once.
-/

namespace LineBasic

namespace Value

/-- The fault of taking a value apart that does not have the expected number of
parts. -/
def separationFault (expected : Nat) (value : Value) : Fault :=
  match value.parts? with
  | none => .notSeparable value.kind
  | some parts =>
    if parts.length < expected then .tooFewParts expected parts.length
    else .tooManyParts expected

/-- The fault of looking for a tag in a value whose tag is not that of a form. The
argument is the fault for a value that has a tag. -/
def untagged (unlisted : Value → Fault) (value : Value) : Fault :=
  match value.parts? with
  | none => .withoutParts value.kind
  | some [] => .noSuchPart value.kind
  | some (_ :: _) => .showing value (unlisted value)

end Value

/-- Reads an expression. -/
def Expr.ofValue : Value → Expr
  | .record [.text "BINOP", operator, left, right] =>
    match ArithOp.all.find? fun op => operator == .text op.name with
    | some op => .binary op (ofValue left) (ofValue right)
    | none => .voided operator (ofValue left) (ofValue right)
  | .record (.text "BINOP" :: parts) =>
    .faulty (Value.separationFault 4 (.record (.text "BINOP" :: parts)))
  | .record (.text "NUMBER" :: value :: _) => .constant value
  | .record (.text "ID" :: name :: _) => .var name
  | .record [.text "NUMBER"] | .record [.text "ID"] => .faulty (.noSuchPart .record)
  | node => .faulty (node.untagged .unlistedExpression)

/-- The relation of a given tag. -/
def Relation.ofValue (tag : Value) : Relation :=
  match Comparison.all.find? fun comparison => tag == .text comparison.name with
  | some comparison => .known comparison
  | none => .unlisted tag

/-- Reads a condition, whatever its tag. Data that cannot be taken apart as a condition
is one whose left side has the fault. -/
def Condition.ofValue (node : Value) : Condition :=
  match node.parts? with
  | some [_, left, tag, right] => ⟨.ofValue left, .ofValue tag, .ofValue right⟩
  | _ => ⟨.faulty (node.separationFault 4), .known .equal, .constant .absent⟩

/-- Reads a printed item. -/
def PrintItem.ofValue : Value → PrintItem
  | .record (.text "STR" :: content :: _) => .text content
  | .record [.text "STR"] => .value (.faulty (.noSuchPart .record))
  | node => .value (.ofValue node)

/-- How many parts the statements have that are taken apart. -/
def Stmt.partCount? : String → Option Nat
  | "LET" | "IF" => some 3
  | "PRINT" | "INPUT" | "GOTO" | "GOSUB" => some 2
  | _ => none

/-- Reads a statement. -/
def Stmt.ofValue : Value → Stmt
  | .record [.text "LET", name, value] => .assign name (.ofValue value)
  | .record [.text "PRINT", items] =>
    match items.parts? with
    | some parts => .print (parts.map .ofValue)
    | none => .faulty (.notSequential items.kind)
  | .record [.text "INPUT", name] => .input name
  | .record [.text "IF", condition, target] => .branch (.ofValue condition) target
  | .record [.text "GOTO", target] => .goto target
  | .record [.text "GOSUB", target] => .gosub target
  | .record (.text "RETURN" :: _) => .ret
  | .record (.text "END" :: _) => .stop
  | .record (.text "REM" :: _) => .remark
  | .record (.text tag :: parts) =>
    let node : Value := .record (.text tag :: parts)
    match partCount? tag with
    | some expected => .faulty (node.separationFault expected)
    | none => .faulty (node.untagged .unlistedStatement)
  | node => .faulty (node.untagged .unlistedStatement)

/-- Reads the statements of a line. -/
def Stmt.allOfValue (body : Value) : List Stmt :=
  match body.parts? with
  | some parts => parts.map .ofValue
  | none => [.faulty (.notSequential body.kind)]

/-- Reads a line, whatever its tag. -/
def Line.ofValue (node : Value) : Except Fault Line :=
  match node.parts? with
  | some [_, number, body] => .ok ⟨number, Stmt.allOfValue body⟩
  | _ => .error (node.separationFault 3)

/-- Reads a program. -/
def Program.ofValue (node : Value) : Except Fault Program :=
  match node.parts? with
  | some lines => lines.mapM Line.ofValue
  | none => .error (.notSequential node.kind)

end LineBasic
