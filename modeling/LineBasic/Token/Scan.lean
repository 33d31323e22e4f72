import LineBasic.Text.Lines
import LineBasic.Text.Quoted
import LineBasic.Token.Lexeme

/-!
# Cutting a source text into tokens

The text is cut into lexemes from the front to the end. Each lexeme but the blanks
makes a token at its place, and a last token ends the list. Cutting
stops at the first offset where no token begins, or at a number with more digits
than the limit.

The first of these errors quotes a line of the text and puts a caret under the
column of the culprit. Lines are counted and columns measured by line feeds, while
the quoted line is found among the display lines; the quotation is therefore the
culprit's own line only in texts without further line breaks.
-/

namespace LineBasic.Token

open Text

/-- Why a text cannot be cut into tokens. -/
inductive ScanError where
  /-- No token begins with the culprit at this line and column. -/
  | unexpected (culprit : Char) (line column : Nat) (quotation : List Char)
  /-- The line to be quoted does not exist. -/
  | unquotable
  /-- A number with too many digits. -/
  | tooManyDigits (count : Nat)
deriving DecidableEq, Repr

/-- The column of an offset within its source line, counted from one. -/
def columnAt (source : List Char) (offset : Nat) : Nat :=
  ((source.take offset).reverse.takeWhile (· != '\n')).length + 1

/-- The error for a culprit on a line at an offset. -/
def ScanError.at (source : List Char) (culprit : Char) (line offset : Nat) : ScanError :=
  match (displayLines source)[line - 1]? with
  | some quotation => .unexpected culprit line (columnAt source offset) quotation
  | none => .unquotable

/-- The wording of an error: the place, the quoted line with a caret under the
column, and the culprit in quotes. -/
def ScanError.message : ScanError → String
  | .unexpected culprit line column quotation =>
    s!"\nErro léxico na linha {line}, coluna {column}:\n" ++
      "  " ++ String.ofList quotation ++ "\n" ++
      "  " ++ String.ofList (List.replicate (column - 1) ' ') ++ "^\n" ++
      "Caractere inesperado: " ++ String.ofList (quoted [culprit])
  | .unquotable => "list index out of range"
  | .tooManyDigits count => Numeral.tooManyDigitsMessage count

/-- The token of a lexeme at a place, if it makes one, in front of others. -/
def Lexeme.consToken (lexeme : Lexeme) (line offset : Nat) (tokens : List Token) : List Token :=
  match lexeme.content? with
  | some (kind, value) => ⟨kind, value, .number line, .number offset⟩ :: tokens
  | none => tokens

/-- Cuts the text that is left, which begins at an offset on a line. The characters
of a lexeme that has been cut already are passed over one by one, so the recursion
is on the text itself. -/
def scanFrom (source : List Char) :
    (passing : Nat) → List Char → (offset line : Nat) → Except ScanError (List Token)
  | _, [], offset, line => .ok [endOfFile line offset]
  | passing + 1, _ :: rest, offset, line => scanFrom source passing rest (offset + 1) line
  | 0, c :: rest, offset, line =>
    match lexeme? (c :: rest) with
    | none => .error (.at source c line offset)
    | some lexeme =>
      match lexeme.excess? with
      | some count => .error (.tooManyDigits count)
      | none =>
        (scanFrom source (lexeme.length - 1) rest (offset + 1) (line + lexeme.lineEnds)).map
          (lexeme.consToken line offset)

/-- Passing over characters is dropping them. -/
theorem scanFrom_passing (source : List Char) (passing : Nat) (text : List Char) (offset line : Nat)
    (within : passing ≤ text.length) :
    scanFrom source passing text offset line =
      scanFrom source 0 (text.drop passing) (offset + passing) line := by
  induction passing generalizing text offset with
  | zero => rfl
  | succ passing inductionHypothesis =>
    cases text with
    | nil => simp at within
    | cons c rest =>
      rw [scanFrom, inductionHypothesis rest (offset + 1) (Nat.le_of_succ_le_succ within)]
      rw [List.drop_succ_cons, Nat.add_assoc, Nat.add_comm 1 passing]

/-- One lexeme is cut from the front, and the rest of the text follows. -/
theorem scanFrom_lexeme (source text : List Char) (lexeme : Lexeme) (offset line : Nat)
    (found : lexeme? text = some lexeme) (short : lexeme.excess? = none) :
    scanFrom source 0 text offset line =
      (scanFrom source 0 (text.drop lexeme.length) (offset + lexeme.length)
        (line + lexeme.lineEnds)).map (lexeme.consToken line offset) := by
  cases text with
  | nil => simp [lexeme?] at found
  | cons c rest =>
    obtain ⟨positive, within⟩ := lexeme?_length found
    rw [scanFrom, found]
    simp only [short]
    rw [scanFrom_passing source _ rest _ _ (by simp at within; omega)]
    have length : lexeme.length = lexeme.length - 1 + 1 := by omega
    rw [length, List.drop_succ_cons, Nat.add_assoc, Nat.add_comm 1]
    simp

/-- The tokens of a source text. -/
def scan (source : String) : Except ScanError (List Token) :=
  scanFrom source.toList 0 source.toList 0 1

end LineBasic.Token
