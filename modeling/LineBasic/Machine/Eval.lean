import LineBasic.Machine.Store
import LineBasic.Program.Basic
import LineBasic.Value.Operations

/-!
# Values of expressions and truth of conditions

Both operands are evaluated, the left one first, before the operator is looked at;
so a fault in an operand comes before a division by zero, and an unknown operator or
relation shows only after its operands have values.

A print statement shows its items one after another, and joins them only when all
have been shown.

An expression of any depth has a value or a fault of its own. That the host has the
stack to evaluate it is an assumption: running out of it is no outcome here.
-/

namespace LineBasic

open Machine (Store)

/-- The value of an expression in a store. The recursion is as deep as the expression,
and its depth is assumed to be no obstacle. -/
def Expr.eval (store : Store) : Expr → Except Fault Value
  | .constant value => .ok value
  | .var name => .ok (store.get name)
  | .binary op left right => do
    let leftValue ← left.eval store
    let rightValue ← right.eval store
    op.apply leftValue rightValue
  | .voided _ left right => do
    let _ ← left.eval store
    let _ ← right.eval store
    .ok .absent
  | .faulty fault => .error fault

/-- The truth of a condition in a store. -/
def Condition.eval (store : Store) (condition : Condition) : Except Fault Bool := do
  let left ← condition.left.eval store
  let right ← condition.right.eval store
  match condition.relation with
  | .known comparison => comparison.holds left right
  | .unlisted tag => .error (.showing tag (.unlistedRelation tag))

/-- What is to be printed for an item: its text as it stands, or its value as it is
shown. -/
def PrintItem.content (store : Store) : PrintItem → Except Fault Value
  | .text content => .ok content
  | .value expr => do
    let value ← expr.eval store
    match value.shown? with
    | some shown => .ok (.text shown)
    | none => .error .numeralTooLong

/-- The texts among printed contents, which all have to be texts. -/
def Machine.texts (position : Nat) : List Value → Except Fault (List String)
  | [] => .ok []
  | .text content :: rest => (Machine.texts (position + 1) rest).map (content :: ·)
  | other :: _ => .error (.notText position other.kind)

/-- The line that a print statement prints: its items with spaces between them. -/
def Machine.printedLine (store : Store) (items : List PrintItem) : Except Fault String := do
  let contents ← items.mapM (PrintItem.content store)
  let texts ← Machine.texts 0 contents
  .ok (String.intercalate " " texts)

end LineBasic
