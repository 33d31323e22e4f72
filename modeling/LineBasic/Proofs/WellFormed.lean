import LineBasic.Proofs.GrammarCompleteness
import LineBasic.Proofs.GrammarPlaces
import LineBasic.Source
import Mathlib.Algebra.Group.Nat.Defs
import Mathlib.Data.List.Chain

/-!
# Well-formed programs

A program is well formed when source text can write it: its numbers are natural and have
no more digits than the limit, its variables are single letters, its strings hold neither
quotes nor line ends, its lists are not empty, and it holds no part that the language
does not know. A comment, which takes the rest of its line, is the last statement of its
line.

Every program read from a source text is well formed. The values of tokens come from the
spellings of their lexemes. That nothing but a line end follows a comment is a property
of neighbouring lexemes, and carries over to neighbouring tokens.
-/

namespace LineBasic

namespace Numeral

/-- The first number that is too long to be written, as a power. -/
theorem writeBound_eq : writeBound = 10 ^ digitLimit := by
  unfold writeBound
  -- Left as it is, the limit would be evaluated and the power with it.
  generalize digitLimit = limit
  rw [Nat.pow_eq]

/-- The numbers below the bound are those with no more digits than the limit. -/
theorem lt_writeBound_iff {n : Nat} :
    n < writeBound ↔ (Nat.toDigits 10 n).length ≤ digitLimit := by
  rw [writeBound_eq, Nat.length_toDigits_le_iff (by decide) (by decide)]

end Numeral

/-! ## Definitions -/

namespace Value

/-- A natural number with no more digits than can be read and written. -/
def IsNumeral (value : Value) : Prop := ∃ n : Nat, value = .number n ∧ n < Numeral.writeBound

/-- Every number of at most eighteen digits is one. -/
theorem isNumeral_of_lt {n : Nat} (small : n < 10 ^ 18) : (Value.number n).IsNumeral := by
  have bound : 10 ^ 18 ≤ Numeral.writeBound := by
    rw [Numeral.writeBound_eq]
    exact Nat.pow_le_pow_right (by decide) (by decide)
  exact ⟨n, rfl, Nat.lt_of_lt_of_le small bound⟩

/-- A single letter. -/
def IsName (value : Value) : Prop :=
  ∃ letter : Char, value = .text (String.ofList [letter]) ∧ Token.isVariable letter = true

/-- A text that can stand between quotes on one line. -/
def IsString (value : Value) : Prop :=
  ∃ content : String, value = .text content ∧ ∀ c ∈ content.toList, c ≠ '"' ∧ c ≠ '\n'

end Value

/-- The parts are well formed, down to the constants and names, and every operator is
known. -/
def Expr.WellFormed : Expr → Prop
  | .constant value => value.IsNumeral
  | .var name => name.IsName
  | .binary _ left right => left.WellFormed ∧ right.WellFormed
  | .voided .. => False
  | .faulty _ => False

/-- Both sides are well formed, and the relation is known. -/
def Condition.WellFormed (condition : Condition) : Prop :=
  condition.left.WellFormed ∧ (∃ which, condition.relation = .known which) ∧
    condition.right.WellFormed

/-- A text is one that can be quoted, and an expression is well formed. -/
def PrintItem.WellFormed : PrintItem → Prop
  | .text content => content.IsString
  | .value expr => expr.WellFormed

/-- The parts are well formed, and something is printed by every print statement. -/
def Stmt.WellFormed : Stmt → Prop
  | .assign name value => name.IsName ∧ value.WellFormed
  | .print items => items ≠ [] ∧ ∀ item ∈ items, item.WellFormed
  | .input name => name.IsName
  | .branch condition target => condition.WellFormed ∧ target.IsNumeral
  | .goto target => target.IsNumeral
  | .gosub target => target.IsNumeral
  | .ret | .stop | .remark => True
  | .faulty _ => False

/-- The line has a number and statements, of which only the last may be a comment. -/
structure Line.WellFormed (line : Line) : Prop where
  number : line.number.IsNumeral
  filled : line.statements ≠ []
  statements : ∀ stmt ∈ line.statements, stmt.WellFormed
  remarks : ∀ stmt ∈ line.statements.dropLast, stmt ≠ .remark

/-- Every line is well formed. -/
def Program.WellFormed (program : Program) : Prop := ∀ line ∈ program, line.WellFormed

/-! ## Tokens of source text -/

/-- Digits write a number that is smaller than the power with as many zeros. -/
theorem Numeral.ofDigits_lt {digits : List Nat} (small : ∀ digit ∈ digits, digit < 10) :
    Numeral.ofDigits digits < 10 ^ digits.length := by
  have folded (value : Nat) : digits.foldl (fun value digit => 10 * value + digit) value <
      (value + 1) * 10 ^ digits.length := by
    induction digits generalizing value with
    | nil => simp
    | cons digit digits inductionHypothesis =>
      have first : digit < 10 := small digit List.mem_cons_self
      have rest := inductionHypothesis (fun other member => small other (.tail _ member))
        (10 * value + digit)
      have grown : (10 * value + digit + 1) * 10 ^ digits.length ≤
          (value + 1) * 10 * 10 ^ digits.length :=
        Nat.mul_le_mul_right _ (by omega)
      rw [List.foldl_cons, List.length_cons, Nat.pow_succ']
      rw [Nat.mul_assoc] at grown
      omega
  simpa [Numeral.ofDigits] using folded 0

namespace Token

/-- What a token of a kind holds when it comes from source text. -/
def Lexical (content : Kind × Value) : Prop :=
  match content.1 with
  | .number => content.2.IsNumeral
  | .identifier => content.2.IsName
  | .string => content.2.IsString
  | .endOfFile => False
  | _ => True

/-- No reserved word or sign is of a kind whose tokens hold more than their spelling. -/
theorem fixed_kinds : ∀ entry ∈ fixedSpellings,
    entry.1 ≠ .number ∧ entry.1 ≠ .identifier ∧ entry.1 ≠ .string ∧ entry.1 ≠ .endOfFile ∧
      entry.1 ≠ .remark := by
  decide

/-- A lexeme that is spelled makes a token that holds what its kind promises. -/
theorem Lexeme.Spelled.lexical {lexeme : Lexeme} {text : List Char} {made : Kind × Value}
    (spelled : lexeme.Spelled text) (short : lexeme.excess? = none)
    (makes : lexeme.content? = some made) : Lexical made := by
  cases lexeme with
  | blanks count => cases makes
  | number digits =>
    obtain ⟨-, -, rfl⟩ := spelled
    cases makes
    refine ⟨_, rfl, ?_⟩
    have few : (text.filterMap Text.digit?).length ≤ Numeral.digitLimit := by
      by_contra many
      simp [Lexeme.excess?, Nat.lt_of_not_le many] at short
    rw [Numeral.writeBound_eq]
    exact Nat.lt_of_lt_of_le (Numeral.ofDigits_lt fun _ => mem_digits)
      (Nat.pow_le_pow_right (by decide) few)
  | fixed kind spelling =>
    obtain ⟨member, -⟩ := spelled
    cases makes
    obtain ⟨notNumber, notName, notString, notEnd, -⟩ := fixed_kinds _ member
    unfold Lexical
    split
    · next isNumber => exact absurd isNumber notNumber
    · next isName => exact absurd isName notName
    · next isString => exact absurd isString notString
    · next isEnd => exact absurd isEnd notEnd
    · trivial
  | remark body =>
    cases makes
    exact trivial
  | identifier letter =>
    cases makes
    exact ⟨letter, rfl, spelled.1⟩
  | string body =>
    cases makes
    refine ⟨String.ofList body, rfl, ?_⟩
    rw [String.toList_ofList]
    exact spelled.1

/-- What is cut from a text makes tokens that hold what their kinds promise. -/
theorem Cuts.lexical {text rest : List Char} {lexemes : List Lexeme}
    (cut : Cuts text lexemes rest) : ∀ made ∈ contents lexemes, Lexical made := by
  induction cut with
  | done text => simp [contents]
  | lexeme found short further inductionHypothesis =>
    intro made member
    obtain ⟨lexeme, among, makes⟩ := List.mem_filterMap.mp member
    rcases List.mem_cons.mp among with rfl | among
    · obtain ⟨spelling, _, -, spelled, -⟩ := lexeme?_eq_some_iff.mp found
      exact spelled.lexical short makes
    · exact inductionHypothesis made (List.mem_filterMap.mpr ⟨lexeme, among, makes⟩)

/-- A comment reaches up to the end of its line. -/
def RemarkEnds (content next : Kind × Value) : Prop := content.1 = .remark → next.1 = .newline

/-- Nothing but a line end follows a comment. The lexeme of a comment leaves nothing of its
line, so the next lexeme, if there is one, is the line end. -/
theorem Cuts.remarks_end {text rest : List Char} {lexemes : List Lexeme}
    (cut : Cuts text lexemes rest) : (contents lexemes).IsChain RemarkEnds := by
  induction cut with
  | done text => exact .nil
  | @lexeme text rest first others found short further inductionHypothesis =>
    cases makes : first.content? with
    | none =>
      rw [contents, List.filterMap_cons_none makes]
      exact inductionHypothesis
    | some made =>
      rw [contents, List.filterMap_cons_some makes]
      refine List.isChain_cons.mpr ⟨?_, inductionHypothesis⟩
      intro next follows isRemark
      obtain ⟨spelling, after, rfl, spelled, ends⟩ := lexeme?_eq_some_iff.mp found
      rw [spelled.length_eq, List.drop_left] at further
      cases first with
      | remark body =>
        cases further with
        | done => simp at follows
        | lexeme secondFound _ _ =>
          cases after with
          | nil => cases secondFound
          | cons c after =>
            obtain rfl : c = '\n' := ends c rfl
            rw [lexeme?_newline] at secondFound
            cases secondFound
            cases follows
            rfl
      | fixed kind spelling =>
        cases makes
        exact absurd isRemark (fixed_kinds _ spelled.1).2.2.2.2
      | _ => cases makes <;> cases isRemark

end Token

/-! ## What such tokens write -/

namespace Program.Grammar

/-- Every token holds what its kind promises. -/
def Lexical (tokens : List Token) : Prop := ∀ token ∈ tokens, Token.Lexical token.content

namespace Lexical

/-- The first of lexical tokens is lexical. -/
theorem head {token : Token} {tokens : List Token} (lexical : Lexical (token :: tokens)) :
    Token.Lexical token.content := lexical token List.mem_cons_self

/-- So are the others. -/
theorem tail {token : Token} {tokens : List Token} (lexical : Lexical (token :: tokens)) :
    Lexical tokens := fun other member => lexical other (.tail _ member)

/-- The front part of lexical tokens is lexical. -/
theorem left {first second : List Token} (lexical : Lexical (first ++ second)) : Lexical first :=
  fun token member => lexical token (List.mem_append_left _ member)

/-- So is the part behind it. -/
theorem right {first second : List Token} (lexical : Lexical (first ++ second)) :
    Lexical second := fun token member => lexical token (List.mem_append_right _ member)

/-- The value of a number can be read and written. -/
theorem numeral {token : Token} {tokens : List Token} (lexical : Lexical (token :: tokens))
    (isNumber : token.kind = .number) : token.value.IsNumeral := by
  have held := lexical.head
  rwa [Token.Lexical, Token.content, isNumber] at held

/-- The value of a name is a letter. -/
theorem name {token : Token} {tokens : List Token} (lexical : Lexical (token :: tokens))
    (isName : token.kind = .identifier) : token.value.IsName := by
  have held := lexical.head
  rwa [Token.Lexical, Token.content, isName] at held

/-- The value of a string can be quoted. -/
theorem string {token : Token} {tokens : List Token} (lexical : Lexical (token :: tokens))
    (isString : token.kind = .string) : token.value.IsString := by
  have held := lexical.head
  rwa [Token.Lexical, Token.content, isString] at held

end Lexical

/-- Expressions written in source text are well formed. -/
theorem Expression.wellFormed {level : Level} {tokens : List Token} {value : Expr}
    (written : Expression level tokens value) (lexical : Lexical tokens) : value.WellFormed := by
  induction written with
  | number isNumber => exact lexical.numeral isNumber
  | name isName => exact lexical.name isName
  | parentheses opens inside closes inductionHypothesis =>
    exact inductionHypothesis lexical.tail.left
  | factor alone inductionHypothesis => exact inductionHypothesis lexical
  | product chain signed multiplies last chainFormed lastFormed =>
    exact ⟨chainFormed lexical.left, lastFormed lexical.right.tail⟩
  | term alone inductionHypothesis => exact inductionHypothesis lexical
  | sum chain signed adds last chainFormed lastFormed =>
    exact ⟨chainFormed lexical.left, lastFormed lexical.right.tail⟩

/-- What may be printed is well formed if source text writes it. -/
theorem Item.wellFormed {tokens : List Token} {item : PrintItem} (written : Item tokens item)
    (lexical : Lexical tokens) : item.WellFormed := by
  cases written with
  | string isString => exact lexical.string isString
  | expression written => exact written.wellFormed lexical

/-- Separated parts are not empty, and what holds of each part written in source text holds
of all of them. -/
theorem Separated.forall_of_lexical {α : Type} {separator : Token.Kind}
    {Part : List Token → α → Prop} {Holds : α → Prop} {tokens : List Token} {parts : List α}
    (written : Separated separator Part tokens parts) (lexical : Lexical tokens)
    (each : ∀ {tokens part}, Part tokens part → Lexical tokens → Holds part) :
    parts ≠ [] ∧ ∀ part ∈ parts, Holds part := by
  induction written with
  | one only => simpa using each only lexical
  | more first separates rest inductionHypothesis =>
    have others := (inductionHypothesis lexical.right.tail).2
    refine ⟨List.cons_ne_nil _ _, ?_⟩
    intro part member
    rcases List.mem_cons.mp member with rfl | member
    · exact each first lexical.left
    · exact others part member

/-- Statements written in source text are well formed. -/
theorem Statement.wellFormed {tokens : List Token} {stmt : Stmt} (written : Statement tokens stmt)
    (lexical : Lexical tokens) : stmt.WellFormed := by
  cases written with
  | assign begins isName isEquals written =>
    exact ⟨lexical.tail.name isName, written.wellFormed lexical.tail.tail.tail⟩
  | print begins listed => exact listed.forall_of_lexical lexical.tail Item.wellFormed
  | input begins isName => exact lexical.tail.name isName
  | branch begins leftSide compares rightSide isThen isNumber =>
    have right := lexical.tail.right.tail
    exact ⟨⟨leftSide.wellFormed lexical.tail.left, ⟨_, rfl⟩, rightSide.wellFormed right.left⟩,
      right.right.tail.numeral isNumber⟩
  | goto begins isNumber => exact lexical.tail.numeral isNumber
  | gosub begins isNumber => exact lexical.tail.numeral isNumber
  | ret begins => exact trivial
  | stop begins => exact trivial
  | remark begins => exact trivial

/-- A token does not follow a comment unless it ends the line. -/
def RemarkEnds (token next : Token) : Prop := Token.RemarkEnds token.content next.content

/-- Of separated statements only the last can be a comment, since a separator does not end
the line. -/
theorem Separated.remarks_last {tokens : List Token} {statements : List Stmt}
    (written : Separated .colon Statement tokens statements) (chain : tokens.IsChain RemarkEnds) :
    ∀ stmt ∈ statements.dropLast, stmt ≠ .remark := by
  induction written with
  | one only => simp
  | @more tokens others mark first rest written separates following inductionHypothesis =>
    have filled : rest ≠ [] := by cases following <;> exact List.cons_ne_nil _ _
    have others := inductionHypothesis chain.right_of_append.tail
    intro stmt member
    rw [List.dropLast_cons_of_ne_nil filled] at member
    rcases List.mem_cons.mp member with rfl | member
    · rintro rfl
      cases written with
      | remark begins =>
        have ended : mark.kind = .newline := (List.isChain_cons_cons.mp chain).1 begins
        rw [separates] at ended
        cases ended
    · exact others stmt member

/-- Lines written in source text are well formed. -/
theorem NumberedLine.wellFormed {tokens : List Token} {line : Line}
    (written : NumberedLine tokens line) (lexical : Lexical tokens)
    (chain : tokens.IsChain RemarkEnds) : line.WellFormed := by
  cases written with
  | intro isNumber body =>
    obtain ⟨filled, formed⟩ := body.forall_of_lexical lexical.tail Statement.wellFormed
    exact ⟨lexical.numeral isNumber, filled, formed, body.remarks_last chain.tail⟩

/-- Programs written in source text are well formed. -/
theorem Lines.wellFormed {tokens : List Token} {program : Program} (written : Lines tokens program)
    (lexical : Lexical tokens) (chain : tokens.IsChain RemarkEnds) : program.WellFormed := by
  induction written with
  | none remarks => simp [Program.WellFormed]
  | last remarks written =>
    have formed := written.wellFormed lexical.right chain.right_of_append
    simpa [Program.WellFormed] using formed
  | more remarks written ends rest inductionHypothesis =>
    have formed := written.wellFormed lexical.right.left chain.right_of_append.left_of_append
    have others := inductionHypothesis lexical.right.right.tail
      chain.right_of_append.right_of_append.tail
    intro line member
    rcases List.mem_cons.mp member with rfl | member
    · exact formed
    · exact others line member

end Program.Grammar

/-! ## Programs of source texts -/

/-- The tokens that a text makes do not end the file. -/
theorem Token.Makes.endless {text : List Char} {tokens : List Token}
    (makes : Token.Makes text (tokens.map Token.content)) : Program.Grammar.Endless tokens := by
  intro token member isEnd
  obtain ⟨lexemes, cut, made⟩ := makes
  have held := cut.lexical token.content (made ▸ List.mem_map_of_mem member)
  rw [Token.Lexical, Token.content, isEnd] at held
  exact held

namespace Source

/-- The stages of reading a source text are scanning it and reading its tokens. -/
theorem program_eq_ok {source : String} {program : Program} :
    Source.program source = .ok program ↔
      ∃ tokens, Token.scan source = .ok tokens ∧ Program.ofTokens tokens = .ok program := by
  rw [Source.program]
  cases Token.scan source with
  | error error => simp
  | ok tokens =>
    cases read : Program.ofTokens tokens with
    | error error => simp [read]
    | ok found => simp [read]

/-- A source text has a program exactly if it makes tokens that write the program. Which
tokens of these contents are meant does not matter. -/
theorem program_eq_ok_iff {source : String} {program : Program} :
    Source.program source = .ok program ↔
      ∃ tokens, Token.Makes source.toList (tokens.map Token.content) ∧
        Program.Grammar.Lines tokens program := by
  rw [program_eq_ok]
  constructor
  · rintro ⟨_, scanned, read⟩
    obtain ⟨tokens, line, column, rfl, makes⟩ := Token.makes_of_scan scanned
    have written := (Program.Grammar.ofTokens_eq_ok_iff _ _).mp read
    rw [Program.Grammar.input_eq rfl makes.endless rfl] at written
    exact ⟨tokens, makes, written⟩
  · rintro ⟨tokens, makes, written⟩
    obtain ⟨placed, line, column, scanned, same⟩ := Token.scan_of_makes makes
    have written : Program.Grammar.Lines placed program :=
      written.congr (Program.Grammar.SameContents.akin same)
    refine ⟨_, scanned, (Program.Grammar.ofTokens_eq_ok_iff _ _).mpr ?_⟩
    rwa [Program.Grammar.input_eq rfl written.endless rfl]

/-- The program of a source text is well formed. -/
theorem program_wellFormed {source : String} {program : Program}
    (accepted : Source.program source = .ok program) : program.WellFormed := by
  obtain ⟨tokens, ⟨lexemes, cut, made⟩, written⟩ := program_eq_ok_iff.mp accepted
  refine written.wellFormed ?_ ?_
  · intro token member
    exact cut.lexical token.content (made ▸ List.mem_map_of_mem member)
  · have chain := cut.remarks_end
    rwa [made, List.isChain_map] at chain

end Source

end LineBasic
