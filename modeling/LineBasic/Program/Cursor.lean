import LineBasic.Fault
import LineBasic.Token.Basic

/-!
# A cursor over tokens, and reading with it

A cursor holds the tokens not yet passed and the number of those passed. Past the
end of the list it goes on counting, and the current token is then the one that
stands past the end of every list. Only a list of tokens given as data can be empty,
and then no cursor is set on it: a text that is cut has at least the token for its end.

A reading step looks at the cursor, may move it, and gives a value or an error.
The cursor stays where the error arose, so what a failed step has passed stays
passed.
-/

namespace LineBasic.Program

/-- What was required where reading failed. Two requirements remember the source
line that the message names: the line on which the numbered line began, and the
line of the variable in front of a missing equals sign. -/
inductive Expectation where
  | lineNumber
  | lineEnd (opened : Value)
  | statement
  | variableToAssign
  | equalsSign (variableLine : Value)
  | printItem
  | variableToInput
  | thenWord
  | branchTarget
  | comparison
  | gotoTarget
  | gosubTarget
  | closingParen
  | factor
deriving DecidableEq, Repr

/-- A token that does not fit. -/
structure GrammarError where
  expected : Expectation
  found : Token
deriving DecidableEq, Repr

/-- The source line that the message names. -/
def GrammarError.line (error : GrammarError) : Value :=
  match error.expected with
  | .lineEnd opened => opened
  | .equalsSign variableLine => variableLine
  | _ => error.found.line

/-- The wording of what was required and what was found instead. -/
def GrammarError.complaint (error : GrammarError) : String :=
  let found := error.found.kind.name
  match error.expected with
  | .lineNumber => s!"Era esperado número de linha, encontrado {found}"
  | .lineEnd _ => s!"Esperado NEWLINE após a linha, encontrado {found}"
  | .statement => s!"Comando inesperado {found}"
  | .variableToAssign => s!"Era esperado ID após LET, encontrado {found}"
  | .equalsSign _ => s!"Era esperado '=' após ID, encontrado {found}"
  | .printItem => s!"PRINT token inesperado {found}"
  | .variableToInput => s!"Esperado ID após INPUT, encontrado {found}"
  | .thenWord => s!"Esperado THEN após condição, encontrado {found}"
  | .branchTarget => s!"Esperado número de linha após THEN, encontrado {found}"
  | .comparison => s!"Operador relacional esperado, encontrado {found}"
  | .gotoTarget => s!"Esperado número de linha após GOTO, encontrado {found}"
  | .gosubTarget => s!"Esperado número de linha após GOSUB, encontrado {found}"
  | .closingParen => "Esperado ')'"
  | .factor => s!"Factor inesperado {found}"

/-- The wording of an error. -/
def GrammarError.message (error : GrammarError) : String :=
  s!"{error.complaint} na linha {error.line.shown}"

/-- The tokens not yet passed, and how many have been. -/
structure Cursor where
  rest : List Token
  position : Nat
deriving DecidableEq, Repr

namespace Cursor

/-- A cursor in front of all the tokens of a list. -/
def start (tokens : List Token) : Cursor := ⟨tokens, 0⟩

/-- Sets a cursor on a list of tokens. It looks up the first of them at once, so a list
without any is a fault. -/
def ofTokens : List Token → Except Fault Cursor
  | [] => .error .noSuchIndex
  | first :: rest => .ok (.start (first :: rest))

/-- The token at the cursor. -/
def current (cursor : Cursor) : Token := cursor.rest.headD Token.pastEnd

/-- The cursor after the current token. -/
def advance (cursor : Cursor) : Cursor := ⟨cursor.rest.tail, cursor.position + 1⟩

end Cursor

/-- A reading step: the value or the error, and the cursor after it. -/
def Reading (α : Type) : Type := Cursor → Except GrammarError α × Cursor

namespace Reading

/-- Gives a value and leaves the cursor alone. -/
protected def pure {α : Type} (value : α) : Reading α := fun cursor => (.ok value, cursor)

/-- One step after another; an error ends the whole. -/
protected def bind {α β : Type} (first : Reading α) (next : α → Reading β) : Reading β :=
  fun cursor =>
    match first cursor with
    | (.ok value, after) => next value after
    | (.error error, after) => (.error error, after)

instance : Monad Reading where
  pure := Reading.pure
  bind := Reading.bind

/-- The token at the cursor. -/
def current : Reading Token := fun cursor => (.ok cursor.current, cursor)

/-- The kind of the token at the cursor. -/
def kind : Reading Token.Kind := fun cursor => (.ok cursor.current.kind, cursor)

/-- Passes the current token and gives its value. -/
def take : Reading Value := fun cursor => (.ok cursor.current.value, cursor.advance)

/-- The tokens left in the list. They bound every loop, which passes one of them or more
in each round. -/
def remaining : Reading (List Token) := fun cursor => (.ok cursor.rest, cursor)

/-- Passes the current token. -/
def advance : Reading Unit := fun cursor => (.ok (), cursor.advance)

/-- Fails at the current token. -/
def expected {α : Type} (expectation : Expectation) : Reading α :=
  fun cursor => (.error ⟨expectation, cursor.current⟩, cursor)

/-- A value is given where the cursor stands. -/
@[simp]
theorem pure_apply {α : Type} (value : α) (cursor : Cursor) :
    (pure value : Reading α) cursor = (.ok value, cursor) := rfl

/-- A step that succeeds hands its value and its cursor to the next. -/
theorem bind_ok {α β : Type} {first : Reading α} {next : α → Reading β} {cursor after : Cursor}
    {value : α} (succeeded : first cursor = (.ok value, after)) :
    (first >>= next) cursor = next value after := by
  change Reading.bind first next cursor = next value after
  rw [Reading.bind, succeeded]

/-- A step that fails ends the whole where it failed. -/
theorem bind_error {α β : Type} {first : Reading α} {next : α → Reading β}
    {cursor after : Cursor} {error : GrammarError} (failed : first cursor = (.error error, after)) :
    (first >>= next) cursor = (.error error, after) := by
  change Reading.bind first next cursor = (.error error, after)
  rw [Reading.bind, failed]

end Reading

end LineBasic.Program
