import LineBasic.Operator
import LineBasic.Value.Basic

/-!
# Faults

A fault is the cause for which a running program stops before its end. Most are
faults of the program or of its input. The others arise only from what is given as
data: a line index outside the program, a list without a first token, data that does
not have the shape of a part of a program, and operations on values that have no
result.
-/

namespace LineBasic

/-- The statements that look up a line by its number. -/
inductive Jump where
  | branch
  | goto
  | gosub
deriving DecidableEq, Repr

/-- The word that begins such a statement. -/
def Jump.word : Jump → String
  | .branch => "IF"
  | .goto => "GOTO"
  | .gosub => "GOSUB"

/-- Why a program stops before its end. -/
inductive Fault where
  | divisionByZero
  | missingLine (target : Value) (jump : Jump)
  | returnWithoutGosub
  | endOfInput
  | notAnInteger (text : List Char)
  | tooManyDigits (count : Nat)
  | infiniteAnswer
  | numeralTooLong
  | noSuchIndex
  /-- A line is looked up at an index beyond all counting. -/
  | indexTooLarge
  /-- A line is looked up at something other than a number. -/
  | notAnIndex (kind : Value.Kind)
  /-- A statement that the language does not know. -/
  | unlistedStatement (node : Value)
  /-- An expression that the language does not know. -/
  | unlistedExpression (node : Value)
  /-- A relation that the language does not know. -/
  | unlistedRelation (tag : Value)
  /-- Fewer parts than the form has. -/
  | tooFewParts (expected found : Nat)
  /-- More parts than the form has. -/
  | tooManyParts (expected : Nat)
  /-- A part is looked up that is not there. -/
  | noSuchPart (kind : Value.Kind)
  /-- A part is looked up in a value that has none. -/
  | withoutParts (kind : Value.Kind)
  /-- A value without parts is to be taken apart. -/
  | notSeparable (kind : Value.Kind)
  /-- A value without parts is gone through part by part. -/
  | notSequential (kind : Value.Kind)
  /-- The operation is not defined on these kinds. -/
  | unsupported (op : ArithOp) (left right : Value.Kind)
  /-- Something else is added to a text or a record. -/
  | notJoinable (sequence added : Value.Kind)
  /-- A text or a record is repeated by something other than a number. -/
  | notRepeatable (count : Value.Kind)
  /-- A text or a record is repeated a number of times beyond all counting. -/
  | repeatTooLarge
  /-- A repeated text has a length beyond all counting. -/
  | repeatedTextTooLong
  /-- A repeated text or record does not fit in memory, of which there is an assumed
  amount. -/
  | outOfMemory
  /-- The kinds have no order between them. -/
  | notOrdered (comparison : Comparison) (left right : Value.Kind)
  /-- Among printed texts stands a value that is none. -/
  | notText (position : Nat) (kind : Value.Kind)
deriving DecidableEq, Repr

/-- The sign of an operation in messages. Division of whole numbers has a sign of
its own there. -/
def ArithOp.messageSign : ArithOp → String
  | .plus => "+"
  | .minus => "-"
  | .times => "*"
  | .dividedBy => "//"

/-- What a message calls a value in which a part is looked up. -/
def Value.Kind.lookupName : Value.Kind → String
  | .text => "string"
  | kind => kind.name

/-- The wording of a fault. -/
def Fault.message : Fault → String
  | .divisionByZero => "Divisão por zero"
  | .missingLine target jump => s!"Linha {target.shown} não encontrada para {jump.word}"
  | .returnWithoutGosub => "RETURN sem GOSUB correspondente"
  | .endOfInput => "EOF when reading a line"
  | .notAnInteger text => Numeral.malformedMessage text
  | .tooManyDigits count => Numeral.tooManyDigitsMessage count
  | .infiniteAnswer => "cannot convert float infinity to integer"
  | .numeralTooLong => Numeral.tooLongMessage
  | .noSuchIndex => "list index out of range"
  | .indexTooLarge => "cannot fit 'int' into an index-sized integer"
  | .notAnIndex kind => s!"list indices must be integers or slices, not {kind.name}"
  | .unlistedStatement node => s!"Statement inesperado: {node.shown}"
  | .unlistedExpression node => s!"Expr inesperada: {node.shown}"
  | .unlistedRelation tag => s!"Operador relacional inesperado: {tag.shown}"
  | .tooFewParts expected found =>
    s!"not enough values to unpack (expected {expected}, got {found})"
  | .tooManyParts expected => s!"too many values to unpack (expected {expected})"
  | .noSuchPart kind => s!"{kind.lookupName} index out of range"
  | .withoutParts kind => s!"'{kind.name}' object is not subscriptable"
  | .notSeparable kind => s!"cannot unpack non-iterable {kind.name} object"
  | .notSequential kind => s!"'{kind.name}' object is not iterable"
  | .unsupported op left right =>
    s!"unsupported operand type(s) for {op.messageSign}: '{left.name}' and '{right.name}'"
  | .notJoinable sequence added =>
    s!"can only concatenate {sequence.name} (not \"{added.name}\") to {sequence.name}"
  | .notRepeatable count => s!"can't multiply sequence by non-int of type '{count.name}'"
  | .repeatTooLarge => "cannot fit 'int' into an index-sized integer"
  | .repeatedTextTooLong => "repeated string is too long"
  | .outOfMemory => ""
  | .notOrdered comparison left right =>
    s!"'{comparison.spelling}' not supported between instances of '{left.name}' and '{right.name}'"
  | .notText position kind =>
    s!"sequence item {position}: expected str instance, {kind.name} found"

/-- A fault whose wording shows a value. A value with a number too long to be written
is the fault that comes first. -/
def Fault.showing (value : Value) (fault : Fault) : Fault :=
  if value.writable then fault else .numeralTooLong

/-- The fault of an input text that is not read as an integer. -/
def Fault.ofFlaw (text : List Char) : Numeral.Flaw → Fault
  | .malformed => .notAnInteger text
  | .tooManyDigits count => .tooManyDigits count

end LineBasic
