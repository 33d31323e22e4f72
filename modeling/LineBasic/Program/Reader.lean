import LineBasic.Program.Basic
import LineBasic.Program.Cursor

/-!
# Reading a program from tokens

The grammar, where a repeated part stands in braces:

* a program is a sequence of lines, each ended by a line end or the end of the
  file; comments may stand in front of a line number;
* a line is a number and statements separated by colons;
* a factor is a number, a variable or an expression in parentheses; a term is a
  chain of factors joined by multiplication and division, and an expression a
  chain of terms joined by addition and subtraction. Chains group to the left.

Every choice is made at the current token alone. Loops are bounded by the tokens
left when they begin: each round passes at least one, and with none left the current
token ends every loop.

Parentheses may nest to any depth. That the host has the stack to follow them is an
assumption: running out of it is no outcome here.
-/

namespace LineBasic.Program

namespace Reading

/-! ## Expressions -/

/-- The operator of a sum. -/
def sumOperator? : Token.Kind → Option ArithOp
  | .arith .plus => some .plus
  | .arith .minus => some .minus
  | _ => none

/-- The operator of a product. -/
def productOperator? : Token.Kind → Option ArithOp
  | .arith .times => some .times
  | .arith .dividedBy => some .dividedBy
  | _ => none

/-- Joins further operands to the one on the left while operators follow. -/
def chainFrom (operator? : Token.Kind → Option ArithOp) (operand : Reading Expr) :
    (bound : List Token) → (left : Expr) → Reading Expr
  | [], left => pure left
  | _ :: bound, left => do
    match operator? (← kind) with
    | none => pure left
    | some op =>
      advance
      let right ← operand
      chainFrom operator? operand bound (.binary op left right)

/-- Operands joined by operators, grouped to the left. -/
def chain (operator? : Token.Kind → Option ArithOp) (operand : Reading Expr) : Reading Expr := do
  let first ← operand
  chainFrom operator? operand (← remaining) first

/-- A chain of factors, given how to read one. -/
def termOf (factor : Reading Expr) : Reading Expr := chain productOperator? factor

/-- A chain of terms, given how to read a factor. -/
def exprOf (factor : Reading Expr) : Reading Expr := chain sumOperator? (termOf factor)

/-- A factor, given how to read what stands in parentheses. -/
def factorOf (inside : Reading Expr) : Reading Expr := do
  match ← kind with
  | .number =>
    let value ← take
    pure (.constant value)
  | .identifier =>
    let name ← take
    pure (.var name)
  | .leftParen =>
    advance
    let inner ← inside
    match ← kind with
    | .rightParen =>
      advance
      pure inner
    | _ => expected .closingParen
  | _ => expected .factor

/-- A factor with parentheses nested no deeper than there are tokens in the bound. This
bound is never reached, and no other limits the depth: a stack that deep is assumed. -/
def factorWithin : (bound : List Token) → Reading Expr
  | [] => factorOf (expected .factor)
  | _ :: bound => factorOf (exprOf (factorWithin bound))

/-- A factor. Parentheses nest no deeper than there are tokens left. -/
def factor : Reading Expr := do factorWithin (← remaining)

/-- A term. -/
def term : Reading Expr := termOf factor

/-- An expression. -/
def expr : Reading Expr := exprOf factor

/-! ## Statements -/

/-- Further items, each after a separator. -/
def itemsFrom {α : Type} (separator : Token.Kind) (item : Reading α) :
    (bound : List Token) → Reading (List α)
  | [] => pure []
  | _ :: bound => do
    if (← kind) = separator then
      advance
      let first ← item
      let rest ← itemsFrom separator item bound
      pure (first :: rest)
    else
      pure []

/-- One or more items with separators between them. -/
def items {α : Type} (separator : Token.Kind) (item : Reading α) : Reading (List α) := do
  let first ← item
  let rest ← itemsFrom separator item (← remaining)
  pure (first :: rest)

/-- A token of a given kind is required here. It is passed, and gives its value. -/
def required (wanted : Token.Kind) (expectation : Expectation) : Reading Value := do
  if (← kind) = wanted then take else expected expectation

/-- An assignment, whose first token is passed unseen. -/
def assignment : Reading Stmt := do
  advance
  let variableLine := (← current).line
  let name ← required .identifier .variableToAssign
  let _ ← required (.comparison .equal) (.equalsSign variableLine)
  let value ← expr
  pure (.assign name value)

/-- What may be printed: a string or an expression. -/
def printItem : Reading PrintItem := do
  match ← kind with
  | .string =>
    let content ← take
    pure (.text content)
  | .number | .identifier | .leftParen =>
    let value ← expr
    pure (.value value)
  | _ => expected .printItem

/-- A print statement, whose first token is passed unseen. -/
def print : Reading Stmt := do
  advance
  let printed ← items .comma printItem
  pure (.print printed)

/-- An input statement, whose first token is passed unseen. -/
def input : Reading Stmt := do
  advance
  let name ← required .identifier .variableToInput
  pure (.input name)

/-- A comparison is required here. -/
def comparison : Reading Comparison := do
  match ← kind with
  | .comparison which =>
    advance
    pure which
  | _ => expected .comparison

/-- Two expressions with a comparison between them. -/
def condition : Reading Condition := do
  let left ← expr
  let which ← comparison
  let right ← expr
  pure ⟨left, .known which, right⟩

/-- A conditional jump, whose first token is passed unseen. -/
def branch : Reading Stmt := do
  advance
  let tested ← condition
  let _ ← required (.keyword .thenWord) .thenWord
  let target ← required .number .branchTarget
  pure (.branch tested target)

/-- A jump, whose first token is passed unseen. -/
def goto : Reading Stmt := do
  advance
  let target ← required .number .gotoTarget
  pure (.goto target)

/-- A subroutine call, whose first token is passed unseen. -/
def gosub : Reading Stmt := do
  advance
  let target ← required .number .gosubTarget
  pure (.gosub target)

/-- A statement of one word. -/
def oneWord (stmt : Stmt) : Reading Stmt := do
  advance
  pure stmt

/-- A statement, chosen by its first token. -/
def statement : Reading Stmt := do
  match ← kind with
  | .keyword .letWord => assignment
  | .keyword .printWord => print
  | .keyword .inputWord => input
  | .keyword .ifWord => branch
  | .keyword .gotoWord => goto
  | .keyword .gosubWord => gosub
  | .keyword .returnWord => oneWord .ret
  | .keyword .endWord => oneWord .stop
  | .remark => oneWord .remark
  | _ => expected .statement

/-- Statements with colons between them. -/
def statements : Reading (List Stmt) := items .colon statement

/-! ## Lines -/

/-- The end of a line that began on a source line: a line end, which is passed, or
the end of the file, which is not. -/
def lineEnd (opened : Value) : Reading Unit := do
  match ← kind with
  | .newline => advance
  | .endOfFile => pure ()
  | _ => expected (.lineEnd opened)

/-- A numbered line. -/
def line : Reading Line := do
  let opened := (← current).line
  let lineNumber ← required .number .lineNumber
  let body ← statements
  lineEnd opened
  pure ⟨lineNumber, body⟩

/-- Passes comments in front of a line. -/
def skipRemarks : (bound : List Token) → Reading Unit
  | [] => pure ()
  | _ :: bound => do
    match ← kind with
    | .remark | .remarkText =>
      advance
      skipRemarks bound
    | _ => pure ()

/-- True at the end of the file. -/
def atEnd : Reading Bool := do
  match ← kind with
  | .endOfFile => pure true
  | _ => pure false

/-- Lines up to the end of the file. -/
def linesFrom : (bound : List Token) → Reading (List Line)
  | [] => pure []
  | _ :: bound => do
    if ← atEnd then
      pure []
    else
      skipRemarks (← remaining)
      if ← atEnd then
        pure []
      else
        let first ← line
        let rest ← linesFrom bound
        pure (first :: rest)

/-- A whole program. -/
def program : Reading Program := do linesFrom (← remaining)

end Reading

/-- The program that a token list makes. -/
def ofTokens (tokens : List Token) : Except GrammarError Program :=
  (Reading.program (.start tokens)).1

end LineBasic.Program
