import LineBasic.Program.Basic

/-!
# Listings of programs

Every part of a program has an outline: a record that begins with a tag and holds
the outlines of the parts of that part. Lists of statements and of printed items are
sequences, which are written in brackets. Writing down the outlines of its lines
gives the listing of a program.
-/

namespace LineBasic

/-- Nested records and sequences of values. -/
inductive Outline where
  | value (value : Value)
  | record (fields : List Outline)
  | sequence (items : List Outline)
deriving Repr, Inhabited

namespace Outline

mutual

/-- An outline as it is written down. -/
def written : Outline → String
  | .value content => content.written
  | .record fields => Value.writtenRecord (writtenAll fields)
  | .sequence items => "[" ++ String.intercalate ", " (writtenAll items) ++ "]"

/-- Every outline of a list as it is written down. -/
def writtenAll : List Outline → List String
  | [] => []
  | first :: rest => written first :: writtenAll rest

end

/-- A part with a tag. -/
def tagged (tag : String) (fields : List Outline) : Outline :=
  .record (.value (.text tag) :: fields)

/-- A part that is not known is outlined by the wording of its fault. -/
def ofFault (fault : Fault) : Outline := .value (.text fault.message)

end Outline

/-- The outline of an expression. -/
def Expr.outline : Expr → Outline
  | .constant value => .tagged "NUMBER" [.value value]
  | .var name => .tagged "ID" [.value name]
  | .binary op left right =>
    .tagged "BINOP" [.value (.text op.name), left.outline, right.outline]
  | .voided operator left right => .tagged "BINOP" [.value operator, left.outline, right.outline]
  | .faulty fault => .ofFault fault

/-- The tag of a relation. -/
def Relation.tag : Relation → Value
  | .known comparison => .text comparison.name
  | .unlisted tag => tag

/-- The outline of a condition. -/
def Condition.outline (condition : Condition) : Outline :=
  .tagged "COND" [condition.left.outline, .value condition.relation.tag, condition.right.outline]

/-- The outline of a printed item. -/
def PrintItem.outline : PrintItem → Outline
  | .text content => .tagged "STR" [.value content]
  | .value expr => expr.outline

/-- The outline of a statement. -/
def Stmt.outline : Stmt → Outline
  | .assign name value => .tagged "LET" [.value name, value.outline]
  | .print items => .tagged "PRINT" [.sequence (items.map PrintItem.outline)]
  | .input name => .tagged "INPUT" [.value name]
  | .branch condition target => .tagged "IF" [condition.outline, .value target]
  | .goto target => .tagged "GOTO" [.value target]
  | .gosub target => .tagged "GOSUB" [.value target]
  | .ret => .tagged "RETURN" []
  | .stop => .tagged "END" []
  | .remark => .tagged "REM" []
  | .faulty fault => .ofFault fault

/-- The outline of a line. -/
def Line.outline (line : Line) : Outline :=
  .tagged "LINE" [.value line.number, .sequence (line.statements.map Stmt.outline)]

/-- A listing: the outline of every line, on a line of its own. The numbers of a
program read from tokens are those of the tokens, so a listing can write them all. -/
def Program.listing (program : Program) : String :=
  String.join (program.map fun line => line.outline.written ++ "\n")

end LineBasic
