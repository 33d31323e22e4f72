import LineBasic.Fault

/-!
# Programs

A program is a list of numbered lines, each a list of statements. Line numbers
need not be increasing nor distinct.

A program can also be given as data instead of text. Then its constants, names and
line numbers may be values of any kind, and parts of it may have forms that the
language does not know. Such a part does no harm until it is reached; it is kept as
the fault that reaching it causes. An operation with an unknown operator still
evaluates both operands, and its value is absent.
-/

namespace LineBasic

/-- Arithmetic expressions. -/
inductive Expr where
  | constant (value : Value)
  | var (name : Value)
  | binary (op : ArithOp) (left right : Expr)
  | voided (operator : Value) (left right : Expr)
  | faulty (fault : Fault)
deriving DecidableEq, Repr

/-- The relation of a condition. -/
inductive Relation where
  | known (comparison : Comparison)
  | unlisted (tag : Value)
deriving DecidableEq, Repr

/-- Two expressions and the relation between them. -/
structure Condition where
  left : Expr
  relation : Relation
  right : Expr
deriving DecidableEq, Repr

/-- What a print statement lists: a text as it stands, or an expression. -/
inductive PrintItem where
  | text (content : Value)
  | value (expr : Expr)
deriving DecidableEq, Repr

/-- Statements. Jumps name the number of a line. -/
inductive Stmt where
  | assign (name : Value) (value : Expr)
  | print (items : List PrintItem)
  | input (name : Value)
  | branch (condition : Condition) (target : Value)
  | goto (target : Value)
  | gosub (target : Value)
  | ret
  | stop
  | remark
  | faulty (fault : Fault)
deriving DecidableEq, Repr

/-- A numbered line. -/
structure Line where
  number : Value
  statements : List Stmt
deriving DecidableEq, Repr

/-- A program: its lines in the order in which they stand. -/
abbrev Program := List Line

end LineBasic
