import LineBasic.Token.Basic

/-!
# Lexemes

A lexeme is the piece of text at the front of a source text that makes one token,
or a run of blanks that makes none. Numbers and runs of blanks extend as far as
they can. Reserved words need no separation from what follows them: a text that
begins like a reserved word begins with that word. A comment extends to the end
of its line. Any other capital letter is a variable by itself. A string has its
two quotes on one line. Of the signs, the longer ones are preferred.

A text that begins in no such way has no lexeme.
-/

namespace LineBasic.Token

open Text

/-- The piece of text that stands at the front. -/
inductive Lexeme where
  /-- A run of spaces and tabs. -/
  | blanks (count : Nat)
  /-- A run of digits. -/
  | number (digits : List Nat)
  /-- A reserved word or a sign. -/
  | fixed (kind : Kind) (spelling : List Char)
  /-- A comment, given by the text after its first word. -/
  | remark (text : List Char)
  /-- A variable. -/
  | identifier (letter : Char)
  /-- A string, given by the text between its quotes. -/
  | string (text : List Char)
deriving DecidableEq, Repr

/-- The first word of a comment. -/
def remarkWord : List Char := ['R', 'E', 'M']

/-- How many characters a lexeme takes. -/
def Lexeme.length : Lexeme → Nat
  | .blanks count => count
  | .number digits => digits.length
  | .fixed _ spelling => spelling.length
  | .remark text => remarkWord.length + text.length
  | .identifier _ => 1
  | .string text => text.length + 2

/-- The reserved words and the signs in the order in which they are tried. A sign
that begins another sign comes after it. -/
def fixedSpellings : List (Kind × List Char) :=
  Keyword.all.map (fun word => (.keyword word, word.spelling.toList)) ++
    [Comparison.greaterEqual, .lessEqual, .notEqual, .greater, .less, .equal].map
      (fun comparison => (.comparison comparison, comparison.spelling.toList)) ++
    ArithOp.all.map (fun op => (.arith op, op.spelling.toList)) ++
    [(.leftParen, ['(']), (.rightParen, [')']), (.comma, [',']), (.colon, [':']),
      (.newline, ['\n'])]

/-- The spaces that separate tokens. -/
def isSpace (c : Char) : Bool := c == ' ' || c == '\t'

/-- The letters that name variables. -/
def isVariable (c : Char) : Bool := 'A' ≤ c && c ≤ 'Z'

/-- The string that follows an opening quote, up to the next quote on the line. -/
def string? (text : List Char) : Option Lexeme :=
  let inside := fun c => c != '"' && c != '\n'
  match text.dropWhile inside with
  | '"' :: _ => some (.string (text.takeWhile inside))
  | _ => none

/-- The lexeme at the front of a text, or nothing if no token begins there. -/
def lexeme? : List Char → Option Lexeme
  | [] => none
  | c :: rest =>
    if isDigit c then some (.number (((c :: rest).takeWhile isDigit).filterMap digit?))
    else if isSpace c then some (.blanks ((c :: rest).takeWhile isSpace).length)
    else if c = '"' then string? rest
    else
      match fixedSpellings.find? fun entry => entry.2.isPrefixOf (c :: rest) with
      | some (kind, spelling) => some (.fixed kind spelling)
      | none =>
        if remarkWord.isPrefixOf (c :: rest) then
          some (.remark (((c :: rest).drop remarkWord.length).takeWhile (· != '\n')))
        else if isVariable c then some (.identifier c)
        else none

/-- The kind and value of the token that a lexeme makes. A run of blanks makes none, and
the text of a comment is trimmed. -/
def Lexeme.content? : Lexeme → Option (Kind × Value)
  | .blanks _ => none
  | .number digits => some (.number, .number (Numeral.ofDigits digits))
  | .fixed kind spelling => some (kind, .text (String.ofList spelling))
  | .remark text => some (.remark, .text (String.ofList (trim text)))
  | .identifier letter => some (.identifier, .text (String.ofList [letter]))
  | .string text => some (.string, .text (String.ofList text))

/-- How many digits a number has that has more of them than the limit. -/
def Lexeme.excess? : Lexeme → Option Nat
  | .number digits => if Numeral.digitLimit < digits.length then some digits.length else none
  | _ => none

/-- How many source lines a lexeme ends. -/
def Lexeme.lineEnds : Lexeme → Nat
  | .fixed .newline _ => 1
  | _ => 0

/-- Every digit of a run has a value, so a run has as many values as characters. -/
theorem length_digits (text : List Char) :
    ((text.takeWhile isDigit).filterMap digit?).length = (text.takeWhile isDigit).length := by
  induction text with
  | nil => rfl
  | cons c rest inductionHypothesis =>
    cases value : digit? c with
    | none => simp [isDigit, value]
    | some digit =>
      have here : isDigit c = true := by simp [isDigit, value]
      simp [here, value, inductionHypothesis]

/-- No spelling is empty. -/
theorem spelling_ne_nil : ∀ entry ∈ fixedSpellings, entry.2 ≠ [] := by decide

/-- A lexeme takes at least one character, and no more than there are. -/
theorem lexeme?_length {text : List Char} {lexeme : Lexeme} (found : lexeme? text = some lexeme) :
    0 < lexeme.length ∧ lexeme.length ≤ text.length := by
  cases text with
  | nil => simp [lexeme?] at found
  | cons c rest =>
    simp only [lexeme?] at found
    split at found
    · next digit =>
      cases found
      have run : (List.takeWhile isDigit (c :: rest)).length ≤ (c :: rest).length :=
        (List.takeWhile_prefix isDigit).length_le
      constructor
      · rw [Lexeme.length, length_digits, List.takeWhile_cons, if_pos digit]
        exact Nat.succ_pos _
      · rw [Lexeme.length, length_digits]
        exact run
    · split at found
      · next space =>
        cases found
        constructor
        · rw [Lexeme.length, List.takeWhile_cons, if_pos space]
          exact Nat.succ_pos _
        · exact (List.takeWhile_prefix isSpace).length_le
      · split at found
        · simp only [string?] at found
          split at found
          · next after closed =>
            cases found
            have parts := congrArg List.length
              (List.takeWhile_append_dropWhile (p := fun c => c != '"' && c != '\n') (l := rest))
            rw [closed, List.length_append, List.length_cons] at parts
            simp only [Lexeme.length, List.length_cons]
            omega
          · cases found
        · split at found
          · next kind spelling entry =>
            cases found
            have member := List.mem_of_find?_eq_some entry
            have isFront := List.find?_some entry
            have filled := spelling_ne_nil _ member
            constructor
            · exact List.length_pos_iff.mpr filled
            · exact (List.isPrefixOf_iff_prefix.mp isFront).length_le
          · split at found
            · next begun =>
              cases found
              have word := (List.isPrefixOf_iff_prefix.mp begun).length_le
              have body : (List.takeWhile (fun c => c != '\n')
                  ((c :: rest).drop remarkWord.length)).length ≤ _ :=
                (List.takeWhile_prefix _).length_le
              rw [List.length_drop] at body
              simp only [Lexeme.length]
              constructor
              · exact Nat.lt_of_lt_of_le (by decide : 0 < remarkWord.length) (Nat.le_add_right _ _)
              · omega
            · split at found
              · cases found
                simp [Lexeme.length]
              · cases found

end LineBasic.Token
