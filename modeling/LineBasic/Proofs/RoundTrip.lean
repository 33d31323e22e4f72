import LineBasic.Proofs.DecimalDigits
import LineBasic.Proofs.Rendering

/-!
# Reading a rendering gives the program back

Three levels meet here. Every word of a rendering is the spelling of one lexeme, and the
space, colon or line end behind it does not continue it; so the text makes the tokens of
its words. These tokens write the program in the grammar, because what is strong enough
to stand as an operand is written at the level of that operand. And the grammar writes
one program only.
-/

namespace LineBasic

/-! ## Words -/

namespace Token

/-- What follows a word: a space, a colon, the end of the line, or nothing. -/
def Boundary (rest : List Char) : Prop := Front (fun c => c = ' ' ∨ c = ':' ∨ c = '\n') rest

/-- A text that begins with such a character follows a word. -/
theorem Boundary.cons {c : Char} (either : c = ' ' ∨ c = ':' ∨ c = '\n') (rest : List Char) :
    Boundary (c :: rest) := by
  intro first isFirst
  cases isFirst
  exact either

/-- What follows a word begins with no digit. -/
theorem Boundary.noDigit {rest : List Char} (boundary : Boundary rest) :
    Front (fun c => Text.isDigit c = false) rest := by
  intro c first
  rcases boundary c first with rfl | rfl | rfl <;> decide

/-- No reserved word or sign reaches over a boundary, since none has a space, a colon or a
line end behind its first character. -/
theorem Boundary.prefix_front {front rest : List Char} (boundary : Boundary rest)
    (filled : front ≠ []) {word : List Char}
    (apart : ∀ c ∈ word.tail, c ≠ ' ' ∧ c ≠ ':' ∧ c ≠ '\n') (begins : word <+: front ++ rest) :
    word <+: front := by
  rcases List.prefix_or_prefix_of_prefix begins (List.prefix_append front rest) with
    shorter | longer
  · exact shorter
  · obtain ⟨beyond, rfl⟩ := longer
    rw [List.prefix_append_right_inj] at begins
    cases beyond with
    | nil => exact ⟨[], by rw [List.append_nil, List.append_nil]⟩
    | cons c beyond =>
      obtain ⟨further, rfl⟩ := begins
      have inTail : c ∈ (front ++ c :: beyond).tail := by
        rw [List.tail_append_of_ne_nil filled]
        simp
      obtain ⟨notSpace, notColon, notEnd⟩ := apart c inTail
      rcases boundary c rfl with isSpace | isColon | isEnd
      · exact absurd isSpace notSpace
      · exact absurd isColon notColon
      · exact absurd isEnd notEnd

/-- No reserved word or sign has a space, a colon or a line end behind its first
character. -/
theorem fixed_tail :
    ∀ entry ∈ fixedSpellings, ∀ c ∈ entry.2.tail, c ≠ ' ' ∧ c ≠ ':' ∧ c ≠ '\n' := by
  have checked : (fixedSpellings.all fun entry =>
      entry.2.tail.all fun c => c != ' ' && c != ':' && c != '\n') = true := by decide
  intro entry member c inTail
  have passed := List.all_eq_true.mp (List.all_eq_true.mp checked entry member) c inTail
  simpa [and_assoc] using passed

/-- No reserved word or sign is a variable. -/
theorem fixed_variable {letter : Char} (isLetter : isVariable letter = true) :
    ∀ entry ∈ fixedSpellings, ¬ entry.2 <+: [letter] := by
  have checked : (fixedSpellings.all fun entry =>
      entry.2.length != 1 || entry.2.all fun c => !isVariable c) = true := by decide
  intro entry member begins
  have filled := List.length_pos_iff.mpr (spelling_ne_nil entry member)
  have short : entry.2.length ≤ 1 := begins.length_le
  have single : entry.2.length = 1 := by omega
  have same : entry.2 = [letter] := begins.eq_of_length single
  have passed := List.all_eq_true.mp checked entry member
  simp [same, isLetter] at passed

/-- The word spells a lexeme that makes the content, wherever a boundary follows. -/
def Spells (word : String) (made : Kind × Value) : Prop :=
  ∃ lexeme : Lexeme, lexeme.Spelled word.toList ∧ lexeme.excess? = none ∧
    lexeme.content? = some made ∧ ∀ rest, Boundary rest → lexeme.Ends rest

namespace Spells

/-- Reserved words and signs spell themselves. -/
theorem fixed {kind : Kind} {word : String} (member : (kind, word.toList) ∈ fixedSpellings) :
    Spells word (kind, .text word) := by
  refine ⟨.fixed kind word.toList, ⟨member, rfl⟩, rfl, ?_, ?_⟩
  · rw [Lexeme.content?, String.ofList_toList]
  · intro rest boundary entry among begins
    exact boundary.prefix_front (spelling_ne_nil _ member) (fixed_tail entry among) begins

/-- A reserved word spells itself. -/
theorem keyword (word : Keyword) : Spells word.spelling (.keyword word, .text word.spelling) :=
  fixed (by cases word <;> decide)

/-- A comparison is spelled by its sign. -/
theorem comparison (which : Comparison) :
    Spells which.spelling (.comparison which, .text which.spelling) :=
  fixed (by cases which <;> decide)

/-- An operator is spelled by its sign. -/
theorem arith (op : ArithOp) : Spells op.spelling (.arith op, .text op.spelling) :=
  fixed (by cases op <;> decide)

/-- The name of a variable spells it. -/
theorem name {name : String} (isName : (Value.text name).IsName) :
    Spells name (.identifier, .text name) := by
  obtain ⟨letter, same, isLetter⟩ := isName
  obtain rfl : name = String.ofList [letter] := Value.text.inj same
  refine ⟨.identifier letter, ⟨isLetter, String.toList_ofList⟩, rfl, rfl, ?_⟩
  intro rest boundary
  have alone {word : List Char} (apart : ∀ c ∈ word.tail, c ≠ ' ' ∧ c ≠ ':' ∧ c ≠ '\n')
      (begins : word <+: [letter] ++ rest) : word <+: [letter] :=
    boundary.prefix_front (List.cons_ne_nil _ _) apart begins
  constructor
  · intro entry member begins
    exact fixed_variable isLetter entry member (alone (fixed_tail entry member) begins)
  · intro begins
    have short := (alone (by simp [remarkWord]) begins).length_le
    simp [remarkWord] at short

/-- A text between quotes spells the text. -/
theorem string {content : String} (isString : (Value.text content).IsString) :
    Spells ("\"" ++ content ++ "\"") (.string, .text content) := by
  obtain ⟨text, same, inside⟩ := isString
  obtain rfl : content = text := Value.text.inj same
  refine ⟨.string content.toList, ⟨inside, ?_⟩, rfl, ?_, fun _ _ => trivial⟩
  · simp
  · rw [Lexeme.content?, String.ofList_toList]

/-- The decimal digits of a number spell it. -/
theorem numeral {n : Nat} (isNumeral : (Value.number n).IsNumeral) :
    Spells n.repr (.number, .number n) := by
  obtain ⟨m, same, small⟩ := isNumeral
  obtain rfl : n = m := Int.ofNat.inj (Value.number.inj same)
  obtain ⟨spelled, holds⟩ := spelled_toDigits n
  rw [← Nat.toList_repr] at spelled
  have short := excess?_toDigits (Numeral.lt_writeBound_iff.mp small)
  exact ⟨.number (Numeral.digitsOf n), spelled, short, holds, fun rest boundary => boundary.noDigit⟩

end Spells

end Token

namespace Program.Grammar

/-- The words spell the tokens, one by one. -/
def Spelled (words : List String) (tokens : List Token) : Prop :=
  List.Forall₂ (fun word token => Token.Spells word token.content) words tokens

/-- Words with one space between each two make the tokens that they spell, in front of what
the rest makes. -/
theorem Spelled.makes {words : List String} {tokens : List Token} {rest : List Char}
    {made : List (Token.Kind × Value)} (spelled : Spelled words tokens) (filled : words ≠ [])
    (boundary : Token.Boundary rest) (further : Token.Makes rest made) :
    Token.Makes ((" ".intercalate words).toList ++ rest) (tokens.map Token.content ++ made) := by
  rw [String.toList_intercalate]
  induction spelled with
  | nil => exact absurd rfl filled
  | @cons word token words tokens first others inductionHypothesis =>
    obtain ⟨lexeme, isSpelled, short, holds, ends⟩ := first
    cases others with
    | nil =>
      rw [List.map_singleton, List.intercalate_singleton]
      exact .spelled isSpelled (ends rest boundary) short holds further
    | cons second others =>
      have following := (inductionHypothesis (List.cons_ne_nil _ _)).space
      have whole := Token.Makes.spelled isSpelled (ends _ (.cons (.inl rfl) _)) short holds
        following
      simpa [List.intercalate_cons_cons] using whole

/-! ## Tokens of renderings -/

/-- A token at no place. -/
def bare (kind : Token.Kind) (value : Value) : Token := ⟨kind, value, .absent, .absent⟩

/-- The least strength of what stands at a level without parentheses of its own. -/
def Level.least : Level → Nat
  | .expr => 0
  | .term => 2
  | .factor => 3

/-- What may stand as a factor may stand at every level. -/
theorem Expression.atLevel {tokens : List Token} {value : Expr}
    (written : Expression .factor tokens value) (level : Level) :
    Expression level tokens value := by
  cases level with
  | factor => exact written
  | term => exact .factor written
  | expr => exact .term (.factor written)

end Program.Grammar

open Program.Grammar

/-- The words of a rendering spell tokens that write the expression at every level for which
it is strong enough. -/
theorem Expr.Rendered.tokens {expr : Expr} {strength : Nat} {words : List String}
    (rendered : expr.Rendered strength words) (formed : expr.WellFormed) :
    ∃ tokens, Spelled words tokens ∧
      ∀ level : Level, level.least ≤ strength → Expression level tokens expr := by
  induction rendered with
  | constant n =>
    refine ⟨[bare .number (.number n)], .cons (.numeral formed) .nil, fun level _ => ?_⟩
    exact Expression.atLevel (.number rfl) level
  | var name =>
    refine ⟨[bare .identifier (.text name)], .cons (.name formed) .nil, fun level _ => ?_⟩
    exact Expression.atLevel (.name rfl) level
  | enclosed inside inductionHypothesis =>
    obtain ⟨tokens, spelled, written⟩ := inductionHypothesis formed
    have opening : Token.Spells "(" (.leftParen, .text "(") := .fixed (by decide)
    have closing : Token.Spells ")" (.rightParen, .text ")") := .fixed (by decide)
    refine ⟨bare .leftParen (.text "(") :: (tokens ++ [bare .rightParen (.text ")")]),
      .cons opening (List.rel_append spelled (.cons closing .nil)), fun level _ => ?_⟩
    exact Expression.atLevel (.parentheses rfl (written .expr (Nat.zero_le _)) rfl) level
  | @binary op left right _ _ first second leftSide leftHolds rightSide rightHolds leftHypothesis
      rightHypothesis =>
    obtain ⟨leftTokens, leftSpelled, leftWritten⟩ := leftHypothesis formed.1
    obtain ⟨rightTokens, rightSpelled, rightWritten⟩ := rightHypothesis formed.2
    refine ⟨leftTokens ++ bare (.arith op) (.text op.spelling) :: rightTokens,
      List.rel_append leftSpelled (.cons (.arith op) rightSpelled), ?_⟩
    intro level enough
    have either : (op.strength = 1 ∧ (op = .plus ∨ op = .minus)) ∨
        (op.strength = 2 ∧ (op = .times ∨ op = .dividedBy)) := by
      cases op <;> simp [ArithOp.strength]
    rcases either with ⟨strength, adds⟩ | ⟨strength, multiplies⟩
    · rw [strength] at enough rightHolds
      have written := Expression.sum (leftWritten .expr (Nat.zero_le _))
        (rfl : (bare (.arith op) (.text op.spelling)).kind = _) adds (rightWritten .term rightHolds)
      cases level with
      | expr => exact written
      | term => exact absurd enough (by decide)
      | factor => exact absurd enough (by decide)
    · rw [strength] at enough leftHolds rightHolds
      have written := Expression.product (leftWritten .term leftHolds)
        (rfl : (bare (.arith op) (.text op.spelling)).kind = _) multiplies
        (rightWritten .factor rightHolds)
      cases level with
      | expr => exact .term written
      | term => exact written
      | factor => exact absurd enough (by decide)

/-- A rendering of an expression spells tokens that write it. -/
theorem Expr.Rendered.exprTokens {expr : Expr} {strength : Nat} {words : List String}
    (rendered : expr.Rendered strength words) (formed : expr.WellFormed) :
    ∃ tokens, Spelled words tokens ∧ Expression .expr tokens expr := by
  obtain ⟨tokens, spelled, written⟩ := rendered.tokens formed
  exact ⟨tokens, spelled, written .expr (Nat.zero_le _)⟩

/-- A rendering of a printed item spells tokens that write it. -/
theorem PrintItem.Rendered.tokens {item : PrintItem} {words : List String}
    (rendered : item.Rendered words) (formed : item.WellFormed) :
    ∃ tokens, Spelled words tokens ∧ Item tokens item := by
  cases rendered with
  | text content =>
    exact ⟨[bare .string (.text content)], .cons (.string formed) .nil, .string rfl⟩
  | value written =>
    obtain ⟨tokens, spelled, written⟩ := written.exprTokens formed
    exact ⟨tokens, spelled, .expression written⟩

/-- Renderings of printed items with commas between them spell tokens that write the list. -/
theorem PrintItem.rendered_tokens {items : List PrintItem} {parts : List (List String)}
    (rendered : List.Forall₂ PrintItem.Rendered items parts) (filled : items ≠ [])
    (formed : ∀ item ∈ items, item.WellFormed) :
    ∃ tokens, Spelled ([","].intercalate parts) tokens ∧ Separated .comma Item tokens items := by
  induction rendered with
  | nil => exact absurd rfl filled
  | @cons item part items parts first others inductionHypothesis =>
    obtain ⟨tokens, spelled, written⟩ := first.tokens (formed item List.mem_cons_self)
    cases others with
    | nil =>
      rw [List.intercalate_singleton]
      exact ⟨tokens, spelled, .one written⟩
    | cons second others =>
      obtain ⟨further, furtherSpelled, furtherWritten⟩ :=
        inductionHypothesis (List.cons_ne_nil _ _) fun other member => formed other (.tail _ member)
      have comma : Token.Spells "," (.comma, .text ",") := .fixed (by decide)
      refine ⟨tokens ++ bare .comma (.text ",") :: further, ?_, .more written rfl furtherWritten⟩
      rw [List.intercalate_cons_cons, List.append_assoc]
      exact List.rel_append spelled (.cons comma furtherSpelled)

/-- A statement is rendered by one word at least. -/
theorem Stmt.Rendered.filled {stmt : Stmt} {words : List String} (rendered : stmt.Rendered words) :
    words ≠ [] := by
  cases rendered <;> exact List.cons_ne_nil _ _

/-- A rendering of a statement spells tokens that write it. The words of a comment do not
count, since a comment takes in whatever follows it. -/
theorem Stmt.Rendered.tokens {stmt : Stmt} {words : List String} (rendered : stmt.Rendered words)
    (formed : stmt.WellFormed) (other : stmt ≠ .remark) :
    ∃ tokens, Spelled words tokens ∧ Statement tokens stmt := by
  cases rendered with
  | assign name written =>
    obtain ⟨tokens, spelled, written⟩ := written.exprTokens formed.2
    exact ⟨bare (.keyword .letWord) _ :: bare .identifier (.text name) ::
        bare (.comparison .equal) _ :: tokens,
      .cons (.keyword .letWord) (.cons (.name formed.1) (.cons (.comparison .equal) spelled)),
      .assign rfl rfl rfl written⟩
  | print written =>
    obtain ⟨tokens, spelled, written⟩ := PrintItem.rendered_tokens written formed.1 formed.2
    exact ⟨bare (.keyword .printWord) _ :: tokens, .cons (.keyword .printWord) spelled,
      .print rfl written⟩
  | input name =>
    exact ⟨[bare (.keyword .inputWord) _, bare .identifier (.text name)],
      .cons (.keyword .inputWord) (.cons (.name formed) .nil), .input rfl rfl⟩
  | branch leftSide which rightSide target =>
    obtain ⟨⟨leftFormed, -, rightFormed⟩, targetFormed⟩ := formed
    obtain ⟨first, firstSpelled, leftWritten⟩ := leftSide.exprTokens leftFormed
    obtain ⟨second, secondSpelled, rightWritten⟩ := rightSide.exprTokens rightFormed
    have ending : Spelled ["THEN", target.repr]
        [bare (.keyword .thenWord) (.text "THEN"), bare .number (.number target)] :=
      .cons (.keyword .thenWord) (.cons (.numeral targetFormed) .nil)
    exact ⟨bare (.keyword .ifWord) _ :: (first ++ bare (.comparison which) _ ::
        (second ++ [bare (.keyword .thenWord) (.text "THEN"), bare .number (.number target)])),
      .cons (.keyword .ifWord) (List.rel_append firstSpelled
        (.cons (.comparison which) (List.rel_append secondSpelled ending))),
      .branch rfl leftWritten rfl rightWritten rfl rfl⟩
  | goto target =>
    exact ⟨[bare (.keyword .gotoWord) _, bare .number (.number target)],
      .cons (.keyword .gotoWord) (.cons (.numeral formed) .nil), .goto rfl rfl⟩
  | gosub target =>
    exact ⟨[bare (.keyword .gosubWord) _, bare .number (.number target)],
      .cons (.keyword .gosubWord) (.cons (.numeral formed) .nil), .gosub rfl rfl⟩
  | ret => exact ⟨[bare (.keyword .returnWord) _], .cons (.keyword .returnWord) .nil, .ret rfl⟩
  | stop => exact ⟨[bare (.keyword .endWord) _], .cons (.keyword .endWord) .nil, .stop rfl⟩
  | remark => exact absurd rfl other

/-! ## Lines and programs -/

/-- A gap makes nothing. -/
theorem Gap.makes {gap : String} (isGap : Gap gap) {rest : List Char}
    {made : List (Token.Kind × Value)} (further : Token.Makes rest made) :
    Token.Makes (gap.toList ++ rest) made := by
  rcases isGap with rfl | rfl
  · exact further
  · exact further.space

/-- A word may stand in front of a gap where it may stand without the gap. -/
theorem Gap.boundary {gap : String} (isGap : Gap gap) {rest : List Char}
    (boundary : Token.Boundary rest) : Token.Boundary (gap.toList ++ rest) := by
  rcases isGap with rfl | rfl
  · exact boundary
  · exact .cons (.inl rfl) rest

/-- A sign that begins no other makes its token in front of every text. -/
theorem Token.Makes.sign {kind : Token.Kind} {spelling rest : List Char}
    {made : List (Token.Kind × Value)} (member : (kind, spelling) ∈ Token.fixedSpellings)
    (alone : ∀ entry ∈ Token.fixedSpellings, spelling <+: entry.2 → entry.2 = spelling)
    (further : Token.Makes rest made) :
    Token.Makes (spelling ++ rest) ((kind, .text (String.ofList spelling)) :: made) := by
  have spelled : (Token.Lexeme.fixed kind spelling).Spelled spelling := ⟨member, rfl⟩
  exact .spelled spelled (Token.fixed_ends rest alone) rfl rfl further

/-- A comment in front of a line end makes one token, whatever it says. -/
theorem Token.Makes.remark {comment : List Char} (onLine : '\n' ∉ comment) {rest : List Char}
    {made : List (Token.Kind × Value)} (further : Token.Makes ('\n' :: rest) made) :
    ∃ token : Token, token.kind = .remark ∧
      Token.Makes ("REM".toList ++ comment ++ '\n' :: rest) (token.content :: made) := by
  have spelled : (Token.Lexeme.remark comment).Spelled ("REM".toList ++ comment) := ⟨onLine, rfl⟩
  have ends : (Token.Lexeme.remark comment).Ends ('\n' :: rest) := by
    intro c first
    cases first
    rfl
  exact ⟨bare .remark _, rfl, .spelled spelled ends rfl rfl further⟩

/-- A rendering of the statements of a line makes tokens that write them. -/
theorem Line.BodyRendered.makes {stmts : List Stmt} {text : String}
    (rendered : Line.BodyRendered stmts text) (formed : ∀ stmt ∈ stmts, stmt.WellFormed)
    (remarks : ∀ stmt ∈ stmts.dropLast, stmt ≠ .remark) {rest : List Char}
    {made : List (Token.Kind × Value)} (further : Token.Makes ('\n' :: rest) made) :
    ∃ tokens, Separated .colon Statement tokens stmts ∧
      Token.Makes (text.toList ++ '\n' :: rest) (tokens.map Token.content ++ made) := by
  have lineEnd : Token.Boundary ('\n' :: rest) := .cons (.inr (.inr rfl)) rest
  induction rendered with
  | @last stmt words after written gapAfter =>
    have stmtFormed := formed stmt List.mem_cons_self
    rw [String.toList_append, List.append_assoc]
    by_cases isRemark : stmt = .remark
    · subst isRemark
      cases written with
      | @remark comment onLine =>
        have allOnLine : '\n' ∉ comment.toList ++ after.toList := by
          rcases gapAfter with rfl | rfl <;> simpa using onLine
        obtain ⟨token, isRemark, makes⟩ := Token.Makes.remark allOnLine further
        refine ⟨[token], .one (.remark isRemark), ?_⟩
        simpa [String.toList_intercalate] using makes
    · obtain ⟨tokens, spelled, wrote⟩ := written.tokens stmtFormed isRemark
      have makes := gapAfter.makes further
      exact ⟨tokens, .one wrote, spelled.makes written.filled (gapAfter.boundary lineEnd) makes⟩
  | @more stmt stmts words before after text written gapBefore gapAfter others
      inductionHypothesis =>
    have filled : stmts ≠ [] := by cases others <;> exact List.cons_ne_nil _ _
    rw [List.dropLast_cons_of_ne_nil filled] at remarks
    have notRemark : stmt ≠ .remark := remarks stmt List.mem_cons_self
    obtain ⟨tokens, spelled, wrote⟩ := written.tokens (formed stmt List.mem_cons_self) notRemark
    obtain ⟨following, separated, makes⟩ := inductionHypothesis
      (fun other member => formed other (.tail _ member))
      fun other member => remarks other (.tail _ member)
    have colon := Token.Makes.sign (by decide : (.colon, [':']) ∈ Token.fixedSpellings) (by decide)
      (gapAfter.makes makes)
    have boundary := gapBefore.boundary (.cons (.inr (.inl rfl))
      (after.toList ++ (text.toList ++ '\n' :: rest)))
    have whole := spelled.makes written.filled boundary (gapBefore.makes colon)
    refine ⟨tokens ++ bare .colon (.text ":") :: following, .more wrote rfl separated, ?_⟩
    simpa [Token.content, bare] using whole

/-- A rendering of a line makes tokens that write it, and one that ends the line. -/
theorem Line.Rendered.makes {line : Line} {text : String} (rendered : line.Rendered text)
    (formed : line.WellFormed) {rest : List Char} {made : List (Token.Kind × Value)}
    (further : Token.Makes rest made) :
    ∃ tokens, ∃ lineEnd : Token, NumberedLine tokens line ∧ lineEnd.kind = .newline ∧
      Token.Makes (text.toList ++ rest)
        (tokens.map Token.content ++ lineEnd.content :: made) := by
  obtain ⟨number, body⟩ := rendered
  have ending := Token.Makes.sign (by decide : (.newline, ['\n']) ∈ Token.fixedSpellings)
    (by decide) further
  obtain ⟨tokens, separated, makes⟩ := body.makes formed.statements formed.remarks ending
  have numeral : Spelled [number.repr] [bare .number (.number number)] :=
    .cons (.numeral formed.number) .nil
  have whole := numeral.makes (List.cons_ne_nil _ _) (.cons (.inl rfl) _) makes.space
  refine ⟨bare .number (.number number) :: tokens, bare .newline (.text "\n"),
    .intro rfl separated, rfl, ?_⟩
  simpa [String.toList_intercalate, Token.content, bare] using whole

/-- A rendering of a program makes tokens that write it. -/
theorem Program.Rendered.makes {program : Program} {text : String}
    (rendered : program.Rendered text) (formed : program.WellFormed) :
    ∃ tokens, Lines tokens program ∧ Token.Makes text.toList (tokens.map Token.content) := by
  obtain ⟨lines, each, rfl⟩ := rendered
  rw [String.toList_join]
  induction each with
  | nil => exact ⟨[], .none (by simp [Remarks]), .nil⟩
  | @cons line text program lines first others inductionHypothesis =>
    obtain ⟨following, written, makes⟩ :=
      inductionHypothesis fun other member => formed other (.tail _ member)
    obtain ⟨tokens, lineEnd, wrote, ends, whole⟩ :=
      first.makes (formed line List.mem_cons_self) makes
    have noComments : Remarks [] := by simp [Remarks]
    refine ⟨tokens ++ lineEnd :: following, .more noComments wrote ends written, ?_⟩
    simpa using whole

/-- A text that renders a well-formed program is read as that program. -/
theorem Source.program_of_rendered {program : Program} {text : String}
    (formed : program.WellFormed) (rendered : program.Rendered text) :
    Source.program text = .ok program := by
  obtain ⟨tokens, written, makes⟩ := rendered.makes formed
  exact Source.program_eq_ok_iff.mpr ⟨tokens, makes, written⟩

/-- Reading undoes rendering: every well-formed program has a rendering, and every rendering
of it is read as that program and no other. Conversely, every program that is read from a
source text is well formed, so rendering it and reading it again gives it back.

A rendering is cut into the lexemes that it was made of, because the blanks between them keep
neighbours apart, and their tokens derive the program, so that reading gives it. For the converse,
the tokens of a text are lexical, and what the grammar derives from such tokens is well formed. -/
theorem Source.program_render_exact (program : Program) :
    (program.WellFormed → program.Rendered program.render ∧
      ∀ text, program.Rendered text → Source.program text = .ok program) ∧
    ∀ source, Source.program source = .ok program →
      program.WellFormed ∧ Source.program program.render = .ok program := by
  constructor
  · intro formed
    exact ⟨Program.render_rendered formed, fun _ => Source.program_of_rendered formed⟩
  · intro source accepted
    have formed := Source.program_wellFormed accepted
    exact ⟨formed, Source.program_of_rendered formed (Program.render_rendered formed)⟩

/-- The difference on the left of a product keeps its parentheses, the constant on the right
may have some, and a comment may say anything. -/
theorem Source.program_render_exact_grouped :
    let condition : Condition := ⟨.binary .times (.binary .minus (.var (.text "A"))
      (.constant (.number 1))) (.constant (.number 2)), .known .lessEqual, .var (.text "B")⟩
    let program : Program := [⟨.number 10, [.branch condition (.number 10), .remark]⟩]
    let text := "10 IF ( A - 1 ) * ( 2 ) <= B THEN 10 : REM again: \"\n"
    program.WellFormed ∧ program.Rendered text ∧ Source.program text = .ok program ∧
      Source.program program.render = .ok program := by
  intro condition program text
  have nameA : (Value.text "A").IsName := ⟨'A', rfl, rfl⟩
  have nameB : (Value.text "B").IsName := ⟨'B', rfl, rfl⟩
  have formed : program.WellFormed := by
    intro line member
    obtain rfl := List.mem_singleton.mp member
    have ten : (Value.number (10 : Nat)).IsNumeral := Value.isNumeral_of_lt (by decide)
    have one : (Value.number (1 : Nat)).IsNumeral := Value.isNumeral_of_lt (by decide)
    have two : (Value.number (2 : Nat)).IsNumeral := Value.isNumeral_of_lt (by decide)
    refine ⟨ten, List.cons_ne_nil _ _, ?_, by simp⟩
    intro stmt among
    rcases List.mem_pair.mp among with rfl | rfl
    · exact ⟨⟨⟨⟨nameA, one⟩, two⟩, ⟨.lessEqual, rfl⟩, nameB⟩, ten⟩
    · exact trivial
  have rendered : program.Rendered text := by
    have difference := Expr.Rendered.binary (.var "A") (by decide : ArithOp.minus.strength ≤ 3)
      (.constant 1) (by decide)
    have product := Expr.Rendered.binary (.enclosed difference)
      (by decide : ArithOp.times.strength ≤ 3) (.enclosed (.constant 2)) (by decide)
    have remark : Stmt.Rendered .remark ["REM again: \""] :=
      .remark (by decide : '\n' ∉ " again: \"".toList)
    have body := Line.BodyRendered.more (.branch product .lessEqual (.var "B") 10) (.inr rfl)
      (.inr rfl) (.last remark (.inl rfl))
    exact ⟨_, .cons (.intro 10 body) .nil, by decide⟩
  obtain ⟨fromProgram, fromSource⟩ := Source.program_render_exact program
  have read := (fromProgram formed).2 text rendered
  exact ⟨formed, rendered, read, (fromSource text read).2⟩

end LineBasic
