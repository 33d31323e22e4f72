/-!
# Operators and comparisons

The four operators of arithmetic and the six comparisons. Both are tokens of the
source text and parts of a program, and each has one spelling and one name; the
name is what listings and messages show.
-/

namespace LineBasic

/-- The operators of arithmetic. Division is that of whole numbers. -/
inductive ArithOp where
  | plus
  | minus
  | times
  | dividedBy
deriving DecidableEq, Repr

/-- The comparisons of two numbers. -/
inductive Comparison where
  | equal
  | notEqual
  | less
  | greater
  | lessEqual
  | greaterEqual
deriving DecidableEq, Repr

/-- The name of an operator in listings and messages. -/
def ArithOp.name : ArithOp → String
  | .plus => "PLUS"
  | .minus => "MINUS"
  | .times => "MUL"
  | .dividedBy => "DIV"

/-- The spelling of an operator in the source text. -/
def ArithOp.spelling : ArithOp → String
  | .plus => "+"
  | .minus => "-"
  | .times => "*"
  | .dividedBy => "/"

/-- The name of a comparison in listings and messages. -/
def Comparison.name : Comparison → String
  | .equal => "EQ"
  | .notEqual => "NE"
  | .less => "LT"
  | .greater => "GT"
  | .lessEqual => "LE"
  | .greaterEqual => "GE"

/-- The spelling of a comparison in the source text. -/
def Comparison.spelling : Comparison → String
  | .equal => "="
  | .notEqual => "<>"
  | .less => "<"
  | .greater => ">"
  | .lessEqual => "<="
  | .greaterEqual => ">="

/-- Every operator. -/
def ArithOp.all : List ArithOp := [.plus, .minus, .times, .dividedBy]

/-- Every comparison. -/
def Comparison.all : List Comparison :=
  [.equal, .notEqual, .less, .greater, .lessEqual, .greaterEqual]

end LineBasic
