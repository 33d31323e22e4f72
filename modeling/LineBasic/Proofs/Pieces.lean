import LineBasic.Proofs.Cutting

/-!
# Tokens and the pieces of their text

A source text that has tokens consists of pieces, one for each token, and of blanks at its
end. A piece is a lexeme with the blanks in front of it. The token stands at the offset of
the lexeme, and on the line that the line ends in front of it count.

What a lexeme of each kind looks like, and what may stand around it, is stated here without
regard to the order in which lexemes are tried. A number is a whole run of digits, a comment
takes the rest of its line, no variable stands where a reserved word or a comment begins, and
no sign stands where a longer one does. These conditions leave no choice: a text is cut into
pieces in one way at most, and then its tokens are those of the pieces. Scanning gives them
whenever no number has too many digits.
-/

namespace LineBasic.Token

open Text

/-! ## Lexemes of a kind -/

/-- The one spelling of a reserved word or a sign. -/
def Kind.spelling? : Kind → Option String
  | .keyword word => some word.spelling
  | .comparison which => some which.spelling
  | .arith op => some op.spelling
  | .leftParen => some "("
  | .rightParen => some ")"
  | .comma => some ","
  | .colon => some ":"
  | .newline => some "\n"
  | _ => none

/-- The text fits a token of the kind and the value, whatever stands around it. -/
inductive Fits : Kind → Value → List Char → Prop where
  /-- Reserved words and signs are spelled as their value. -/
  | fixed {kind : Kind} {spelling : String} (isSpelling : kind.spelling? = some spelling) :
      Fits kind (.text spelling) spelling.toList
  /-- A variable is its letter. -/
  | identifier {letter : Char} (isLetter : isVariable letter = true) :
      Fits .identifier (.text (String.ofList [letter])) [letter]
  /-- A string stands between its quotes. -/
  | string {body : List Char} (inside : ∀ c ∈ body, c ≠ '"' ∧ c ≠ '\n') :
      Fits .string (.text (String.ofList body)) ('"' :: (body ++ ['"']))
  /-- Digits write a number. -/
  | number {run : List Char} (digits : ∀ c ∈ run, isDigit c = true) :
      Fits .number (.number (Numeral.ofDigits (run.filterMap digit?))) run
  /-- A comment is kept without the blanks around it. -/
  | remark {body : List Char} (onLine : '\n' ∉ body) :
      Fits .remark (.text (String.ofList (trim body))) (remarkWord ++ body)

/-- The last character, if there is one, satisfies a test. -/
def Back (test : Char → Prop) (text : List Char) : Prop := ∀ c ∈ text.getLast?, test c

/-- What stands before and after a lexeme of the kind does not belong to it, and does not
make another lexeme of it. -/
def Isolated (kind : Kind) (before lexeme after : List Char) : Prop :=
  match kind with
  | .number => Back (fun c => isDigit c = false) before ∧ Front (fun c => isDigit c = false) after
  | .remark => Front (fun c => c = '\n') after
  | .identifier => (∀ word : Keyword, ¬ word.spelling.toList <+: lexeme ++ after) ∧
      ¬ remarkWord <+: lexeme ++ after
  | .comparison .greater => Front (fun c => c ≠ '=') after
  | .comparison .less => Front (fun c => c ≠ '=' ∧ c ≠ '>') after
  | _ => True

/-! ## Pieces -/

/-- A lexeme and the blanks in front of it. -/
structure Piece where
  gap : List Char
  lexeme : List Char
deriving DecidableEq, Repr

/-- The text consists of spaces and tabs. -/
def Blank (text : List Char) : Prop := ∀ c ∈ text, isSpace c = true

/-- The text of pieces one after another, and of what stands behind them. -/
def joined (pieces : List Piece) (last : List Char) : List Char :=
  pieces.flatMap (fun piece => piece.gap ++ piece.lexeme) ++ last

/-- Behind the text before them, the pieces and the blanks at the end have these tokens, of
which the last ends the text. -/
inductive Reads : (before : List Char) → List Piece → (last : List Char) → List Token → Prop where
  | finish {before last : List Char} (blank : Blank last) :
      Reads before [] last
        [endOfFile (1 + (before ++ last).count '\n' : Nat) (before ++ last).length]
  | token {before gap lexeme last : List Char} {pieces : List Piece} {kind : Kind} {value : Value}
      {tokens : List Token} (blank : Blank gap) (filled : lexeme ≠ [])
      (fits : Fits kind value lexeme)
      (isolated : Isolated kind (before ++ gap) lexeme (joined pieces last))
      (further : Reads (before ++ gap ++ lexeme) pieces last tokens) :
      Reads before (⟨gap, lexeme⟩ :: pieces) last
        (⟨kind, value, .number (1 + (before ++ gap).count '\n' : Nat),
          .number (before ++ gap).length⟩ :: tokens)

/-- The source text consists of pieces with these tokens. -/
def Consists (source : String) (tokens : List Token) : Prop :=
  ∃ pieces last, source.toList = joined pieces last ∧ Reads [] pieces last tokens

/-- The lexeme has no more digits than the limit, if it is a number. -/
def Short (lexeme : List Char) : Prop :=
  (∀ c ∈ lexeme, isDigit c = true) → lexeme.length ≤ Numeral.digitLimit

/-- The first piece stands in front of the others. -/
theorem joined_cons (gap lexeme : List Char) (pieces : List Piece) (last : List Char) :
    joined (⟨gap, lexeme⟩ :: pieces) last = gap ++ (lexeme ++ joined pieces last) := by
  simp [joined]

/-! ## Signs that begin others -/

/-- The reserved words and signs are those that have a spelling, and are tried under it. -/
theorem mem_fixedSpellings_iff {kind : Kind} {spelling : List Char} :
    (kind, spelling) ∈ fixedSpellings ↔ kind.spelling? = some (String.ofList spelling) := by
  constructor
  · have listed : ∀ entry ∈ fixedSpellings, entry.1.spelling? = some (String.ofList entry.2) := by
      decide
    exact listed (kind, spelling)
  · intro spelled
    have same {word : String} (found : some word = some (String.ofList spelling)) :
        word.toList = spelling := by
      rw [Option.some.inj found, String.toList_ofList]
    cases kind with
    | keyword word =>
      rw [← same spelled]
      cases word <;> decide
    | comparison which =>
      rw [← same spelled]
      cases which <;> decide
    | arith op =>
      rw [← same spelled]
      cases op <;> decide
    | leftParen | rightParen | comma | colon | newline =>
      rw [← same spelled]
      decide
    | _ => cases spelled

/-- A kind with a spelling is tried under it. -/
theorem mem_fixedSpellings {kind : Kind} {spelling : String}
    (isSpelling : kind.spelling? = some spelling) : (kind, spelling.toList) ∈ fixedSpellings := by
  rw [mem_fixedSpellings_iff, String.ofList_toList]
  exact isSpelling

/-- Every kind is tried under one spelling at most. -/
theorem fixed_spelling {kind : Kind} {spelling : List Char} {word : String}
    (member : (kind, spelling) ∈ fixedSpellings) (spelled : kind.spelling? = some word) :
    spelling = word.toList := by
  have same := spelled.symm.trans (mem_fixedSpellings_iff.mp member)
  rw [Option.some.inj same, String.toList_ofList]

/-- A sign that begins longer ones ends where none of their second characters follows. -/
theorem sign_ends_iff {kind : Kind} {sign : Char} {after : List Char} (further : List Char)
    (longer : ∀ entry ∈ fixedSpellings, [sign] <+: entry.2 →
      entry.2 = [sign] ∨ entry.2 ∈ further.map fun c => [sign, c])
    (listed : ∀ spelling ∈ further.map fun c => [sign, c],
      ∃ entry ∈ fixedSpellings, entry.2 = spelling) :
    (Lexeme.fixed kind [sign]).Ends after ↔ Front (fun c => c ∉ further) after := by
  constructor
  · intro ends c first member
    obtain ⟨entry, among, spelled⟩ := listed [sign, c] (List.mem_map_of_mem member)
    obtain ⟨rest, rfl⟩ := List.head?_eq_some_iff.mp first
    have begins : entry.2 <+: [sign] ++ c :: rest := ⟨rest, by simp [spelled]⟩
    have short := (ends entry among begins).length_le
    simp [spelled] at short
  · intro apart entry member begins
    rcases List.prefix_or_prefix_of_prefix begins (List.prefix_append [sign] after) with
      shorter | continued
    · exact shorter
    · rcases longer entry member continued with same | among
      · exact same ▸ List.prefix_rfl
      · obtain ⟨c, isFurther, same⟩ := List.mem_map.mp among
        obtain ⟨rest, whole⟩ := begins
        simp only [← same, List.cons_append, List.nil_append, List.cons.injEq, true_and] at whole
        exact absurd isFurther (apart c (by simp [← whole]))

/-- Nothing continues a reserved word or sign, except what makes one of two comparisons
longer. -/
theorem fixed_ends_iff {kind : Kind} {spelling : List Char}
    (member : (kind, spelling) ∈ fixedSpellings) (before after : List Char) :
    (Lexeme.fixed kind spelling).Ends after ↔ Isolated kind before spelling after := by
  by_cases isGreater : kind = .comparison .greater
  · subst isGreater
    obtain rfl : spelling = ['>'] := fixed_spelling member rfl
    rw [sign_ends_iff ['='] (by decide) (by decide)]
    simp [Isolated]
  by_cases isLess : kind = .comparison .less
  · subst isLess
    obtain rfl : spelling = ['<'] := fixed_spelling member rfl
    rw [sign_ends_iff ['=', '>'] (by decide) (by decide)]
    simp [Isolated]
  have alone : ∀ entry ∈ fixedSpellings, entry.1 ≠ .comparison .greater →
      entry.1 ≠ .comparison .less → ∀ other ∈ fixedSpellings, entry.2 <+: other.2 →
      other.2 = entry.2 := by decide
  have ends : (Lexeme.fixed kind spelling).Ends after :=
    fixed_ends after (alone _ member isGreater isLess)
  have kinds : ∀ entry ∈ fixedSpellings,
      entry.1 ≠ .number ∧ entry.1 ≠ .remark ∧ entry.1 ≠ .identifier := by decide
  obtain ⟨notNumber, notRemark, notName⟩ := kinds _ member
  have isolated : Isolated kind before spelling after := by
    unfold Isolated
    split
    all_goals trivial
  exact iff_of_true ends isolated

/-! ## Lexemes and what they make -/

/-- Of the reserved words and signs, only reserved words begin with a letter. -/
theorem fixed_letter {entry : Kind × List Char} (member : entry ∈ fixedSpellings) {letter : Char}
    {rest : List Char} (isLetter : isVariable letter = true) (begins : entry.2 <+: letter :: rest) :
    ∃ word : Keyword, entry.2 = word.spelling.toList := by
  have listed : ∀ entry ∈ fixedSpellings, (∃ word ∈ Keyword.all, entry.2 = word.spelling.toList) ∨
      entry.2.head?.all (fun c => !isVariable c) = true := by decide
  rcases listed entry member with ⟨word, -, spelled⟩ | noLetter
  · exact ⟨word, spelled⟩
  · have filled := spelling_ne_nil entry member
    obtain ⟨c, others, whole⟩ := List.exists_cons_of_ne_nil filled
    rw [whole, List.cons_prefix_cons] at begins
    obtain ⟨rfl, -⟩ := begins
    simp [whole, isLetter] at noLetter

/-- A text that fits a token and stands apart spells a lexeme that makes the token and ends
there. -/
theorem Fits.lexeme {kind : Kind} {value : Value} {before text after : List Char}
    (fits : Fits kind value text) (filled : text ≠ [])
    (isolated : Isolated kind before text after) :
    ∃ lexeme : Lexeme, lexeme.Spelled text ∧ lexeme.Ends after ∧
      lexeme.content? = some (kind, value) := by
  cases fits with
  | @fixed _ spelling isSpelling =>
    have member := mem_fixedSpellings isSpelling
    refine ⟨.fixed kind spelling.toList, ⟨member, rfl⟩, ?_, ?_⟩
    · exact (fixed_ends_iff member before after).mpr isolated
    · rw [Lexeme.content?, String.ofList_toList]
  | @identifier letter isLetter =>
    refine ⟨.identifier letter, ⟨isLetter, rfl⟩, ⟨?_, isolated.2⟩, rfl⟩
    intro entry member begins
    obtain ⟨word, spelled⟩ := fixed_letter member isLetter begins
    exact isolated.1 word (spelled ▸ begins)
  | @string body inside => exact ⟨.string body, ⟨inside, rfl⟩, trivial, rfl⟩
  | number digits => exact ⟨.number _, ⟨filled, digits, rfl⟩, isolated.2, rfl⟩
  | @remark body onLine => exact ⟨.remark body, ⟨onLine, rfl⟩, isolated, rfl⟩

/-- A spelling of a lexeme fits the token that the lexeme makes. -/
theorem Lexeme.Spelled.fits {lexeme : Lexeme} {text : List Char} {kind : Kind} {value : Value}
    (spelled : lexeme.Spelled text) (makes : lexeme.content? = some (kind, value)) :
    text ≠ [] ∧ Fits kind value text := by
  cases lexeme with
  | blanks count => cases makes
  | number digits =>
    obtain ⟨filled, run, rfl⟩ := spelled
    cases makes
    exact ⟨filled, .number run⟩
  | fixed kind spelling =>
    obtain ⟨member, rfl⟩ := spelled
    cases makes
    refine ⟨spelling_ne_nil _ member, ?_⟩
    have fits := Fits.fixed (mem_fixedSpellings_iff.mp member)
    rwa [String.toList_ofList] at fits
  | remark body =>
    obtain ⟨onLine, rfl⟩ := spelled
    cases makes
    exact ⟨List.cons_ne_nil _ _, .remark onLine⟩
  | identifier letter =>
    obtain ⟨isLetter, rfl⟩ := spelled
    cases makes
    exact ⟨List.cons_ne_nil _ _, .identifier isLetter⟩
  | string body =>
    obtain ⟨inside, rfl⟩ := spelled
    cases makes
    exact ⟨List.cons_ne_nil _ _, .string inside⟩

/-- A lexeme that nothing continues stands apart, if no run of digits is cut in front of
it. -/
theorem Lexeme.Ends.isolated {lexeme : Lexeme} {before text after : List Char} {kind : Kind}
    {value : Value} (ends : lexeme.Ends after) (spelled : lexeme.Spelled text)
    (makes : lexeme.content? = some (kind, value))
    (uncut : kind = .number → Back (fun c => isDigit c = false) before) :
    Isolated kind before text after := by
  cases lexeme with
  | blanks count => cases makes
  | number digits =>
    cases makes
    exact ⟨uncut rfl, ends⟩
  | fixed kind spelling =>
    obtain ⟨member, rfl⟩ := spelled
    cases makes
    exact (fixed_ends_iff member before after).mp ends
  | remark body =>
    cases makes
    exact ends
  | identifier letter =>
    obtain ⟨isLetter, rfl⟩ := spelled
    cases makes
    refine ⟨?_, ends.2⟩
    intro word
    have member : (Kind.keyword word, word.spelling.toList) ∈ fixedSpellings := by
      cases word <;> decide
    exact ends.1 _ member
  | string body =>
    cases makes
    exact trivial

/-- The first character of a text that fits a token, by the kind of the token. -/
theorem Fits.begins {kind : Kind} {value : Value} {c : Char} {rest : List Char}
    (fits : Fits kind value (c :: rest)) :
    (kind = .number ∧ isDigit c = true) ∨ (kind = .identifier ∧ isVariable c = true ∧ rest = []) ∨
      (kind = .string ∧ c = '"') ∨ (kind = .remark ∧ c = 'R') ∨
      (kind, c :: rest) ∈ fixedSpellings := by
  generalize whole : c :: rest = text at fits
  cases fits with
  | fixed isSpelling => exact .inr (.inr (.inr (.inr (mem_fixedSpellings isSpelling))))
  | identifier isLetter =>
    cases whole
    exact .inr (.inl ⟨rfl, isLetter, rfl⟩)
  | string inside =>
    cases whole
    exact .inr (.inr (.inl ⟨rfl, rfl⟩))
  | number digits =>
    subst whole
    exact .inl ⟨rfl, digits c List.mem_cons_self⟩
  | remark onLine =>
    cases whole
    exact .inr (.inr (.inr (.inl ⟨rfl, rfl⟩)))

/-- A text that fits a token does not begin with a blank, and it begins with a digit only if
it is a number. -/
theorem Fits.first {kind : Kind} {value : Value} {c : Char} {rest : List Char}
    (fits : Fits kind value (c :: rest)) :
    isSpace c = false ∧ (isDigit c = true → kind = .number) := by
  have noDigits (noDigit : isDigit c = false) (digit : isDigit c = true) : kind = .number :=
    absurd digit (by simp [noDigit])
  rcases fits.begins with ⟨isNumber, digit⟩ | ⟨-, isLetter, -⟩ | ⟨-, rfl⟩ | ⟨-, rfl⟩ | member
  · refine ⟨?_, fun _ => isNumber⟩
    by_contra space
    exact absurd digit (by simp [isSpace_noDigit (Bool.not_eq_false _ ▸ space)])
  · obtain ⟨noDigit, noSpace, -⟩ := isVariable_other isLetter
    exact ⟨noSpace, noDigits noDigit⟩
  · exact ⟨by decide, noDigits (by decide)⟩
  · exact ⟨by decide, noDigits (by decide)⟩
  · obtain ⟨noDigit, noSpace, -⟩ := fixed_front _ member c rfl
    exact ⟨noSpace, noDigits noDigit⟩

/-- A number consists of digits. -/
theorem Fits.digits {value : Value} {text : List Char} (fits : Fits .number value text) :
    ∀ c ∈ text, isDigit c = true := by
  cases fits with
  | fixed isSpelling => cases isSpelling
  | number digits => exact digits

/-! ## From scanning to pieces -/

/-- What stands before the text does not end in digits that the text continues. -/
def Uncut (before text : List Char) : Prop :=
  Back (fun last => isDigit last = true → Front (fun c => isDigit c = false) text) before

/-- A number that continues no digits has none in front of it. -/
theorem Uncut.back {before text after : List Char} {kind : Kind} {value : Value}
    (uncut : Uncut before (text ++ after)) (filled : text ≠ []) (fits : Fits kind value text)
    (isNumber : kind = .number) : Back (fun c => isDigit c = false) before := by
  obtain ⟨first, rest, rfl⟩ := List.exists_cons_of_ne_nil filled
  have digit : isDigit first = true := (isNumber ▸ fits).digits first List.mem_cons_self
  intro last isLast
  by_contra isDigit
  have noDigit := uncut last isLast (Bool.not_eq_false _ ▸ isDigit) first rfl
  exact absurd digit (by simp [noDigit])

/-- No run of digits is cut behind a lexeme. -/
theorem Lexeme.Ends.uncut {lexeme : Lexeme} {text after : List Char} (ends : lexeme.Ends after)
    (spelled : lexeme.Spelled text) (before : List Char) : Uncut (before ++ text) after := by
  have filled : text ≠ [] := by
    rw [← List.length_pos_iff, ← spelled.length_eq]
    exact (lexeme?_length (lexeme?_of_spelled spelled ends)).1
  intro last isLast digit
  have isLast : text.getLast? = some last := by
    rw [List.getLast?_append, List.getLast?_eq_some_getLast filled] at isLast
    rw [List.getLast?_eq_some_getLast filled]
    exact isLast
  have among : last ∈ text := List.mem_of_getLast? isLast
  -- Of all lexemes only numbers and comments may have digits at their end.
  cases lexeme with
  | blanks count =>
    have noDigit := isSpace_noDigit (spelled.2.1 last among)
    exact absurd digit (by simp [noDigit])
  | number digits => exact ends
  | fixed kind spelling =>
    have listed : (fixedSpellings.all fun entry => entry.2.all fun c => !isDigit c) = true := by
      decide
    obtain ⟨member, rfl⟩ := spelled
    have noDigit := List.all_eq_true.mp (List.all_eq_true.mp listed _ member) last among
    exact absurd digit (by simpa using noDigit)
  | remark body =>
    intro c first
    obtain rfl := ends c first
    decide
  | identifier letter =>
    obtain ⟨isLetter, rfl⟩ := spelled
    obtain rfl := List.mem_singleton.mp among
    exact absurd digit (by simp [(isVariable_other isLetter).1])
  | string body =>
    obtain ⟨-, rfl⟩ := spelled
    rw [← List.cons_append, List.getLast?_concat] at isLast
    cases isLast
    exact absurd digit (by decide)

/-- A lexeme may stand right in front of pieces. -/
theorem Reads.cons {before lexeme last : List Char} {pieces : List Piece} {kind : Kind}
    {value : Value} {tokens : List Token} (further : Reads (before ++ lexeme) pieces last tokens)
    (filled : lexeme ≠ []) (fits : Fits kind value lexeme)
    (isolated : Isolated kind before lexeme (joined pieces last)) :
    Reads before (⟨[], lexeme⟩ :: pieces) last
      (⟨kind, value, .number (1 + before.count '\n' : Nat), .number before.length⟩ :: tokens) := by
  have noGap : before ++ [] = before := List.append_nil before
  have token : Reads before (⟨[], lexeme⟩ :: pieces) last _ :=
    .token (by simp [Blank]) filled fits (noGap.symm ▸ isolated) (noGap.symm ▸ further)
  rwa [noGap] at token

/-- Blanks in front of pieces belong to the first of them, or to the blanks at the end. -/
theorem Reads.blanks {before blanks last : List Char} {pieces : List Piece} {tokens : List Token}
    (reads : Reads (before ++ blanks) pieces last tokens) (blank : Blank blanks) :
    ∃ others finish, joined others finish = blanks ++ joined pieces last ∧
      Reads before others finish tokens ∧
      others.map Piece.lexeme = pieces.map Piece.lexeme := by
  have together {gap : List Char} (alsoBlank : Blank gap) : Blank (blanks ++ gap) := by
    intro c member
    rcases List.mem_append.mp member with inFirst | inSecond
    · exact blank c inFirst
    · exact alsoBlank c inSecond
  cases reads with
  | finish lastBlank =>
    refine ⟨[], blanks ++ last, rfl, ?_, rfl⟩
    rw [List.append_assoc]
    exact .finish (together lastBlank)
  | @token _ gap lexeme _ pieces kind value tokens gapBlank filled fits isolated further =>
    refine ⟨⟨blanks ++ gap, lexeme⟩ :: pieces, last, ?_, ?_, rfl⟩
    · rw [joined_cons, joined_cons, List.append_assoc]
    · rw [List.append_assoc before] at isolated further ⊢
      exact .token (together gapBlank) filled fits isolated further

/-- Only a number makes a token that is a number. -/
theorem Lexeme.eq_number {lexeme : Lexeme} {text : List Char} {value : Value}
    (spelled : lexeme.Spelled text) (makes : lexeme.content? = some (.number, value)) :
    lexeme = .number (text.filterMap digit?) := by
  cases lexeme with
  | number digits => rw [spelled.2.2]
  | fixed kind spelling =>
    cases makes
    cases mem_fixedSpellings_iff.mp spelled.1
  | _ => cases makes

/-- A lexeme makes a token exactly unless it has too many digits, which only numbers have. -/
theorem Lexeme.excess?_eq_none_iff {lexeme : Lexeme} {text : List Char} {kind : Kind}
    {value : Value} (spelled : lexeme.Spelled text) (makes : lexeme.content? = some (kind, value)) :
    lexeme.excess? = none ↔ Short text := by
  by_cases isNumber : kind = .number
  · subst isNumber
    have length := spelled.length_eq
    obtain rfl := Lexeme.eq_number spelled makes
    rw [Lexeme.length] at length
    simp only [Lexeme.excess?, length, ite_eq_right_iff, reduceCtorEq, imp_false, Nat.not_lt]
    exact ⟨fun few _ => few, fun short => short spelled.2.1⟩
  · obtain ⟨filled, fits⟩ := spelled.fits makes
    obtain ⟨c, rest, rfl⟩ := List.exists_cons_of_ne_nil filled
    apply iff_of_true
    · cases lexeme with
      | number digits =>
        cases makes
        exact absurd rfl isNumber
      | _ => rfl
    · intro digits
      exact absurd (fits.first.2 (digits c List.mem_cons_self)) isNumber

/-- The tokens behind a lexeme have their places from all the text in front of them. -/
theorem Lexeme.Spelled.placed_cons {lexeme : Lexeme} {spelling : List Char}
    (spelled : lexeme.Spelled spelling) (before : List Char) (others : List Lexeme) :
    placed (lexeme :: others) before.length (1 + before.count '\n') =
      lexeme.consToken (1 + before.count '\n') before.length
        (placed others (before ++ spelling).length (1 + (before ++ spelling).count '\n')) := by
  rw [placed, List.length_append, List.count_append, spelled.length_eq, spelled.lineEnds_eq,
    Nat.add_assoc]

/-- A text that is cut with nothing left consists of pieces, and its tokens are those of the
pieces. -/
theorem Cuts.reads {text rest : List Char} {lexemes : List Lexeme} (cut : Cuts text lexemes rest)
    (finished : rest = []) {before : List Char} (uncut : Uncut before text) :
    ∃ pieces last, text = joined pieces last ∧
      Reads before pieces last (placed lexemes before.length (1 + before.count '\n')) ∧
      ∀ lexeme ∈ pieces.map Piece.lexeme, Short lexeme := by
  induction cut generalizing before with
  | done text =>
    subst finished
    refine ⟨[], [], rfl, ?_, by simp⟩
    have reads : Reads before [] [] _ := .finish (by simp [Blank])
    rwa [List.append_nil] at reads
  | @lexeme text rest first others found few further inductionHypothesis =>
    obtain ⟨spelling, after, rfl, spelled, ends⟩ := lexeme?_eq_some_iff.mp found
    rw [spelled.length_eq, List.drop_left] at inductionHypothesis
    obtain ⟨pieces, last, rfl, reads, short⟩ :=
      inductionHypothesis finished (ends.uncut spelled before)
    rw [spelled.placed_cons]
    cases made : first.content? with
    | none =>
      obtain ⟨count, rfl⟩ : ∃ count, first = .blanks count := by
        cases first with
        | blanks count => exact ⟨count, rfl⟩
        | _ => cases made
      obtain ⟨merged, finish, whole, mergedReads, same⟩ := reads.blanks spelled.2.1
      exact ⟨merged, finish, whole.symm, mergedReads, same ▸ short⟩
    | some content =>
      obtain ⟨kind, value⟩ := content
      obtain ⟨filled, fits⟩ := spelled.fits made
      refine ⟨⟨[], spelling⟩ :: pieces, last, ?_, ?_, ?_⟩
      · rw [joined_cons, List.nil_append]
      · rw [Lexeme.consToken, made]
        exact reads.cons filled fits (ends.isolated spelled made (uncut.back filled fits))
      · rw [List.map_cons, List.forall_mem_cons]
        exact ⟨(Lexeme.excess?_eq_none_iff spelled made).mp few, short⟩

/-! ## From pieces to scanning -/

/-- Blanks hold no line end. -/
theorem Blank.count_eq_zero {text : List Char} (blank : Blank text) : text.count '\n' = 0 := by
  rw [List.count_eq_zero]
  intro member
  exact absurd (blank _ member) (by decide)

/-- A lexeme does not continue the blanks in front of it. -/
theorem Fits.noSpace {kind : Kind} {value : Value} {text : List Char} (fits : Fits kind value text)
    (filled : text ≠ []) (after : List Char) :
    Front (fun c => isSpace c = false) (text ++ after) := by
  obtain ⟨first, rest, rfl⟩ := List.exists_cons_of_ne_nil filled
  intro c isFirst
  cases isFirst
  exact fits.first.1

/-- Blanks in front of a text are cut off by themselves and make nothing. -/
theorem Cuts.gap {gap text rest : List Char} {lexemes : List Lexeme} (blank : Blank gap)
    (apart : Front (fun c => isSpace c = false) text) (cut : Cuts text lexemes rest) :
    ∃ all, Cuts (gap ++ text) all rest ∧
      ∀ offset line, placed all offset line = placed lexemes (offset + gap.length) line := by
  by_cases empty : gap = []
  · subst empty
    exact ⟨lexemes, cut, fun _ _ => rfl⟩
  · have spelled : (Lexeme.blanks gap.length).Spelled gap := ⟨empty, blank, rfl⟩
    exact ⟨_, (Cuts.spelled spelled apart rfl).trans cut, fun _ _ => rfl⟩

/-- Pieces of which no number has too many digits are cut off one after another. -/
theorem Reads.cuts {before last : List Char} {pieces : List Piece} {tokens : List Token}
    (reads : Reads before pieces last tokens)
    (short : ∀ lexeme ∈ pieces.map Piece.lexeme, Short lexeme) :
    ∃ lexemes, Cuts (joined pieces last) lexemes [] ∧
      tokens = placed lexemes before.length (1 + before.count '\n') := by
  induction reads with
  | @finish before last blank =>
    obtain ⟨all, cut, places⟩ := Cuts.gap blank (by simp [Front]) (.done [])
    refine ⟨all, by rwa [List.append_nil] at cut, ?_⟩
    rw [places, placed, List.length_append, List.count_append, blank.count_eq_zero, Nat.add_zero]
  | @token before gap lexeme last pieces kind value tokens blank filled fits isolated further
      inductionHypothesis =>
    rw [List.map_cons, List.forall_mem_cons] at short
    obtain ⟨lexemes, cut, rfl⟩ := inductionHypothesis short.2
    obtain ⟨first, spelled, ends, makes⟩ := fits.lexeme filled isolated
    have few := (Lexeme.excess?_eq_none_iff spelled makes).mpr short.1
    obtain ⟨all, whole, places⟩ := Cuts.gap blank (fits.noSpace filled _)
      ((Cuts.spelled spelled ends few).trans cut)
    refine ⟨all, by rwa [joined_cons], ?_⟩
    have lines : (before ++ gap).count '\n' = before.count '\n' := by
      rw [List.count_append, blank.count_eq_zero, Nat.add_zero]
    rw [places, ← List.length_append, ← lines, List.singleton_append, spelled.placed_cons,
      Lexeme.consToken, makes]

/-- A text that begins with a lexeme behind blanks begins so in one way. -/
theorem gap_unique {gap other text further : List Char} (blank : Blank gap)
    (otherBlank : Blank other) (apart : Front (fun c => isSpace c = false) text)
    (otherApart : Front (fun c => isSpace c = false) further)
    (whole : gap ++ text = other ++ further) : gap = other ∧ text = further := by
  have same : gap = other := by
    rw [← takeWhile_run blank apart, whole, takeWhile_run otherBlank otherApart]
  subst same
  exact ⟨rfl, List.append_cancel_left whole⟩

/-- A text consists of pieces in one way only, and has one list of tokens. The blanks in front
of a lexeme are all that there are, and the lexeme is the one that scanning finds there. -/
theorem Reads.unique {before last finish : List Char} {pieces others : List Piece}
    {tokens found : List Token} (reads : Reads before pieces last tokens)
    (also : Reads before others finish found) (whole : joined pieces last = joined others finish) :
    pieces = others ∧ last = finish ∧ tokens = found := by
  induction reads generalizing others finish found with
  | @finish before last blank =>
    cases also with
    | finish otherBlank =>
      obtain rfl : last = finish := whole
      exact ⟨rfl, rfl, rfl⟩
    | @token _ gap lexeme _ others kind value found gapBlank filled fits isolated further =>
      rw [joined_cons] at whole
      have apart : Front (fun c => isSpace c = false) [] := by simp [Front]
      obtain ⟨-, nothing⟩ := gap_unique blank gapBlank apart (fits.noSpace filled _)
        ((List.append_nil _).trans whole)
      exact absurd (List.append_eq_nil_iff.mp nothing.symm).1 filled
  | @token before gap lexeme last pieces kind value tokens gapBlank filled fits isolated further
      inductionHypothesis =>
    cases also with
    | finish otherBlank =>
      rw [joined_cons] at whole
      have apart : Front (fun c => isSpace c = false) [] := by simp [Front]
      obtain ⟨-, nothing⟩ := gap_unique gapBlank otherBlank (fits.noSpace filled _) apart
        (whole.trans (List.append_nil _).symm)
      exact absurd (List.append_eq_nil_iff.mp nothing).1 filled
    | @token _ otherGap otherLexeme _ others otherKind otherValue found otherBlank otherFilled
        otherFits otherIsolated otherFurther =>
      rw [joined_cons, joined_cons] at whole
      obtain ⟨rfl, behind⟩ := gap_unique gapBlank otherBlank (fits.noSpace filled _)
        (otherFits.noSpace otherFilled _) whole
      obtain ⟨first, spelled, ends, makes⟩ := fits.lexeme filled isolated
      obtain ⟨second, otherSpelled, otherEnds, otherMakes⟩ :=
        otherFits.lexeme otherFilled otherIsolated
      obtain rfl : first = second := by
        have here := lexeme?_of_spelled spelled ends
        rw [behind, lexeme?_of_spelled otherSpelled otherEnds] at here
        exact (Option.some.inj here).symm
      obtain ⟨rfl, rest⟩ := List.append_inj behind
        (spelled.length_eq.symm.trans otherSpelled.length_eq)
      obtain ⟨rfl, rfl⟩ := Prod.mk.inj (Option.some.inj (makes.symm.trans otherMakes))
      obtain ⟨rfl, rfl, rfl⟩ := inductionHypothesis otherFurther rest
      exact ⟨rfl, rfl, rfl⟩

/-- The tokens of a source text are those of its pieces, if no number among these has too many
digits. -/
theorem scan_eq_ok_iff_reads {source : String} {tokens : List Token} :
    scan source = .ok tokens ↔
      ∃ pieces last, source.toList = joined pieces last ∧ Reads [] pieces last tokens ∧
        ∀ lexeme ∈ pieces.map Piece.lexeme, Short lexeme := by
  rw [scan_eq_ok_iff]
  constructor
  · rintro ⟨lexemes, cut, rfl⟩
    exact cut.reads rfl (by simp [Uncut, Back])
  · rintro ⟨pieces, last, whole, reads, short⟩
    obtain ⟨lexemes, cut, rfl⟩ := reads.cuts short
    exact ⟨lexemes, whole ▸ cut, rfl⟩

/-- Scanning gives exactly the tokens of the pieces of a text, unless a number has too many
digits. Whether or not it gives any, no text consists of pieces with different tokens.

Both directions of the first statement are inductions over the lexemes. What scanning cuts off is a
piece, because it stops only where nothing continues the lexeme; and a piece is what scanning cuts
off, because the conditions on it leave no other lexeme to be found there. The latter also shows, by
induction over the pieces, that a text consists of pieces in one way only. -/
theorem scan_exact (source : String) :
    (∀ tokens, scan source = .ok tokens ↔
      ∃ pieces last, source.toList = joined pieces last ∧ Reads [] pieces last tokens ∧
        ∀ lexeme ∈ pieces.map Piece.lexeme, Short lexeme) ∧
    ∀ tokens others, Consists source tokens → Consists source others → tokens = others := by
  constructor
  · intro tokens
    exact scan_eq_ok_iff_reads
  · rintro tokens others ⟨pieces, last, whole, reads⟩ ⟨otherPieces, finish, otherWhole, otherReads⟩
    exact (reads.unique otherReads (whole.symm.trans otherWhole)).2.2

/-- Words and signs need no blanks around them, zeros in front of a number do not count, and a
comment keeps the blanks within it. -/
theorem scan_exact_comment :
    let source := "7IFA>=07THEN 7:REM a  b \n"
    let tokens : List Token := [⟨.number, .number 7, .number 1, .number 0⟩,
      ⟨.keyword .ifWord, .text "IF", .number 1, .number 1⟩,
      ⟨.identifier, .text "A", .number 1, .number 3⟩,
      ⟨.comparison .greaterEqual, .text ">=", .number 1, .number 4⟩,
      ⟨.number, .number 7, .number 1, .number 6⟩,
      ⟨.keyword .thenWord, .text "THEN", .number 1, .number 8⟩,
      ⟨.number, .number 7, .number 1, .number 13⟩, ⟨.colon, .text ":", .number 1, .number 14⟩,
      ⟨.remark, .text "a  b", .number 1, .number 15⟩,
      ⟨.newline, .text "\n", .number 1, .number 24⟩, endOfFile 2 25]
    scan source = .ok tokens ∧ Consists source tokens ∧
      ∀ others, Consists source others → others = tokens := by
  intro source tokens
  have scanned : scan source = .ok tokens := by decide +kernel
  obtain ⟨exact, unique⟩ := scan_exact source
  obtain ⟨pieces, last, whole, reads, -⟩ := (exact tokens).mp scanned
  have consists : Consists source tokens := ⟨pieces, last, whole, reads⟩
  exact ⟨scanned, consists, fun others also => unique others tokens also consists⟩

end LineBasic.Token
