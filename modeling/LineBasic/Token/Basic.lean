import LineBasic.Operator
import LineBasic.Value.Basic

/-!
# Tokens

A token has a kind, a value and a place. In a source text the value of a number is
that number and the value of any other token is a text. The line counts from one,
and the column is the offset from the start of the whole source text, not of the
line.

Besides the kinds that occur in source text there are two that only a hand-made
token list holds: comment text standing on its own, and kinds that the language
does not know. Reading a program rejects the latter wherever they stand. In such a
list the value and the place of a token may be values of any kind.
-/

namespace LineBasic

/-- The reserved words, comments apart. -/
inductive Keyword where
  | letWord
  | printWord
  | inputWord
  | ifWord
  | thenWord
  | gotoWord
  | gosubWord
  | returnWord
  | endWord
deriving DecidableEq, Repr

/-- A reserved word is its own name. -/
def Keyword.spelling : Keyword → String
  | .letWord => "LET"
  | .printWord => "PRINT"
  | .inputWord => "INPUT"
  | .ifWord => "IF"
  | .thenWord => "THEN"
  | .gotoWord => "GOTO"
  | .gosubWord => "GOSUB"
  | .returnWord => "RETURN"
  | .endWord => "END"

/-- The reserved words. None is the beginning of another. -/
def Keyword.all : List Keyword :=
  [.letWord, .printWord, .inputWord, .ifWord, .thenWord, .gotoWord, .gosubWord, .returnWord,
    .endWord]

namespace Token

/-- The kinds of token. -/
inductive Kind where
  | number
  | keyword (word : Keyword)
  | remark
  | remarkText
  | identifier
  | string
  | comparison (which : Comparison)
  | arith (op : ArithOp)
  | leftParen
  | rightParen
  | comma
  | colon
  | newline
  | endOfFile
  | unlisted (tag : Value)
deriving DecidableEq, Repr

/-- The name of a kind in listings and messages. -/
def Kind.name : Kind → String
  | .number => "NUMBER"
  | .keyword word => word.spelling
  | .remark => "REM"
  | .remarkText => "REM_TEXT"
  | .identifier => "ID"
  | .string => "STR"
  | .comparison which => which.name
  | .arith op => op.name
  | .leftParen => "LPAREN"
  | .rightParen => "RPAREN"
  | .comma => "COMMA"
  | .colon => "COLON"
  | .newline => "NEWLINE"
  | .endOfFile => "EOF"
  | .unlisted tag => tag.shown

/-- The kinds that the language knows. -/
def Kind.all : List Kind :=
  .number :: Keyword.all.map .keyword ++ [.remark, .remarkText, .identifier, .string] ++
    Comparison.all.map .comparison ++ ArithOp.all.map .arith ++
    [.leftParen, .rightParen, .comma, .colon, .newline, .endOfFile]

/-- The tag of a kind in data, which is its name if the language knows it. -/
def Kind.tag : Kind → Value
  | .unlisted tag => tag
  | kind => .text kind.name

/-- The kind of a given tag; a tag that the language does not know makes a kind of its
own. -/
def Kind.ofTag (tag : Value) : Kind :=
  (Kind.all.find? fun kind => kind.tag == tag).getD (.unlisted tag)

end Token

/-- A kind, a value and a place. -/
structure Token where
  kind : Token.Kind
  value : Value
  line : Value
  column : Value
deriving DecidableEq, Repr

namespace Token

/-- The token that ends a source text. -/
def endOfFile (line column : Int) : Token :=
  ⟨.endOfFile, .text "$", .number line, .number column⟩

/-- What stands past the end of every token list, at no place of the text. -/
def pastEnd : Token := endOfFile (-1) (-1)

/-- One token in a listing. A number cut from a source text has no more digits than the
limit, so a listing never fails to write one. -/
def shown (token : Token) : String :=
  s!"Token({token.kind.name}, {token.value.shown}, " ++
    s!"linha={token.line.shown}, coluna={token.column.shown})"

/-- A listing: every token on a line of its own. -/
def listing (tokens : List Token) : String :=
  String.join (tokens.map fun token => token.shown ++ "\n")

end Token

end LineBasic
