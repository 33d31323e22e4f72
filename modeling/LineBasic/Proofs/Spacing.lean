import LineBasic.Proofs.Neighbours
import LineBasic.Proofs.Pieces
import LineBasic.Proofs.WellFormed

/-!
# Blanks and the text of comments

The blanks between the lexemes of a source text, and what its comments say, make no
difference to the program: they can be replaced by any others, or left out. In general
lexemes that come together may merge, two numbers into one, two signs into a longer one, or
two letters into a reserved word. In a program no two neighbours do so, since the grammar
keeps such kinds apart and the only word that follows a name begins with a letter that no
reserved word has as its second.

A comment takes the blanks behind it into its own text, up to the end of the line.
-/

namespace LineBasic.Token

open Text Program.Grammar

/-! ## Other blanks and other comments -/

/-- The lexeme is kept, or it is a comment and has become another one. -/
def Reworded (lexeme other : List Char) : Prop :=
  other = lexeme ∨ ∃ body text, lexeme = remarkWord ++ body ∧ other = remarkWord ++ text ∧
    '\n' ∉ text

/-- The piece has any blanks in front of its lexeme, which is kept up to the text of a
comment. -/
structure Restyled (piece other : Piece) : Prop where
  blank : Blank other.gap
  reworded : Reworded piece.lexeme other.lexeme

/-- Only a comment begins with the word of a comment. -/
theorem Fits.eq_remark {kind : Kind} {value : Value} {body : List Char}
    (fits : Fits kind value (remarkWord ++ body)) : kind = .remark := by
  rcases fits.begins with ⟨-, digit⟩ | ⟨-, -, alone⟩ | ⟨-, isQuote⟩ | ⟨isRemark, -⟩ | member
  · exact absurd digit (by decide)
  · cases alone
  · exact absurd isQuote (by decide)
  · exact isRemark
  · exact absurd List.prefix_rfl (fixed_remark body _ member)

/-- What becomes of a lexeme fits a token of the same kind, and only comments change. -/
theorem Reworded.fits {kind : Kind} {value : Value} {lexeme other : List Char}
    (reworded : Reworded lexeme other) (filled : lexeme ≠ []) (fits : Fits kind value lexeme) :
    other ≠ [] ∧ (∃ held, Fits kind held other) ∧ (kind ≠ .remark → other = lexeme) := by
  rcases reworded with rfl | ⟨body, text, rfl, rfl, onLine⟩
  · exact ⟨filled, ⟨value, fits⟩, fun _ => rfl⟩
  · obtain rfl := fits.eq_remark
    exact ⟨List.cons_ne_nil _ _, ⟨_, .remark onLine⟩, fun other => absurd rfl other⟩

/-- No lexeme fits the token that ends the text. -/
theorem Fits.noEnd {kind : Kind} {value : Value} {text : List Char} (fits : Fits kind value text) :
    kind ≠ .endOfFile := by
  rintro rfl
  cases fits with
  | fixed isSpelling => cases isSpelling

/-! ## What may follow a token -/

/-- The text begins with a blank, or with a lexeme of a kind that may stand behind the given
one. -/
def Follows (kind : Kind) (text : List Char) : Prop :=
  Front (fun c => isSpace c = true ∨
    ∃ next value rest, Fits next value (c :: rest) ∧ Touching kind next) text

/-- Only comparisons begin with a sign that continues others. -/
theorem Fits.compares {kind : Kind} {value : Value} {c : Char} {rest : List Char}
    (fits : Fits kind value (c :: rest)) (continues : c = '=' ∨ c = '>') :
    ∃ which, kind = .comparison which := by
  rcases fits.begins with ⟨-, digit⟩ | ⟨-, isLetter, -⟩ | ⟨-, rfl⟩ | ⟨-, rfl⟩ | member
  · rcases continues with rfl | rfl
    · exact absurd digit (by decide)
    · exact absurd digit (by decide)
  · rcases continues with rfl | rfl
    · exact absurd isLetter (by decide)
    · exact absurd isLetter (by decide)
  · exact absurd continues (by decide)
  · exact absurd continues (by decide)
  · have listed : ∀ entry ∈ fixedSpellings, entry.2.head? = some '=' ∨ entry.2.head? = some '>' →
        ∃ which ∈ Comparison.all, entry.1 = .comparison which := by decide
    obtain ⟨which, -, isComparison⟩ := listed _ member (by simpa using continues)
    exact ⟨which, isComparison⟩

/-- What may stand behind a name begins with no letter, except for the word behind a
condition. -/
theorem Fits.letter {kind : Kind} {value : Value} {c : Char} {rest : List Char}
    (fits : Fits kind value (c :: rest)) (touching : Touching .identifier kind)
    (isLetter : isVariable c = true) : c = 'T' := by
  rcases fits.begins with ⟨-, digit⟩ | ⟨isName, -⟩ | ⟨-, rfl⟩ | ⟨isRemark, -⟩ | member
  · exact absurd digit (by simp [(isVariable_other isLetter).1])
  · exact absurd isName touching.1
  · exact absurd isLetter (by decide)
  · exact absurd isRemark touching.2.1
  · have listed : ∀ entry ∈ fixedSpellings, entry.2.head?.all (fun c => !isVariable c) = true ∨
        entry.2.head? = some 'T' ∨ ∃ word ∈ Keyword.all, entry.1 = .keyword word ∧
          word ≠ .thenWord := by decide
    rcases listed _ member with noLetter | isThen | ⟨word, -, isWord, other⟩
    · simp [isLetter] at noLetter
    · exact Option.some.inj isThen
    · exact absurd (touching.2.2 word isWord) other

namespace Follows

variable {after : List Char}

/-- What follows a comparison does not make it longer. -/
theorem noSign {which : Comparison} (follows : Follows (.comparison which) after) :
    Front (fun c => c ≠ '=' ∧ c ≠ '>') after := by
  intro c isFirst
  rw [← not_or]
  intro continues
  rcases follows c isFirst with space | ⟨next, value, rest, fits, touching⟩
  · rcases continues with rfl | rfl
    · exact absurd space (by decide)
    · exact absurd space (by decide)
  · obtain ⟨other, rfl⟩ := fits.compares continues
    exact touching other rfl

/-- What follows a number does not make it longer. -/
theorem noDigit (follows : Follows .number after) : Front (fun c => isDigit c = false) after := by
  intro c isFirst
  rcases follows c isFirst with space | ⟨next, value, rest, fits, touching⟩
  · exact isSpace_noDigit space
  · by_contra digit
    exact touching (fits.first.2 (Bool.not_eq_false _ ▸ digit))

/-- What follows a name makes no word of it whose second letter is not the first one of the
word behind a condition. -/
theorem noWord (follows : Follows .identifier after) {letter first second : Char}
    {rest : List Char} (isLetter : isVariable second = true) (other : second ≠ 'T') :
    ¬ first :: second :: rest <+: [letter] ++ after := by
  rintro ⟨behind, whole⟩
  have behindLetter : second :: (rest ++ behind) = after := (List.cons.inj whole).2
  have isSecond : after.head? = some second := by rw [← behindLetter, List.head?_cons]
  rcases follows second isSecond with space | ⟨next, value, rest, fits, touching⟩
  · exact absurd space (by simp [(isVariable_other isLetter).2.1])
  · exact other (fits.letter touching isLetter)

end Follows

/-- The second letter of a reserved word is not the first one of the word behind a
condition. -/
theorem keyword_second (word : Keyword) :
    ∃ first second rest, word.spelling.toList = first :: second :: rest ∧
      isVariable second = true ∧ second ≠ 'T' := by
  cases word <;> exact ⟨_, _, _, rfl, by decide, by decide⟩

/-- A token that is no comment stands apart from all that may follow it. -/
theorem Fits.isolated {kind : Kind} {value : Value} {text after : List Char}
    (fits : Fits kind value text) (noRemark : kind ≠ .remark) (follows : Follows kind after) :
    Isolated kind [] text after := by
  unfold Isolated
  split
  · exact ⟨by simp [Back], follows.noDigit⟩
  · exact absurd rfl noRemark
  · cases fits with
    | fixed isSpelling => cases isSpelling
    | identifier _ =>
      constructor
      · intro word
        obtain ⟨first, second, rest, spelled, isLetter, other⟩ := keyword_second word
        exact spelled ▸ follows.noWord isLetter other
      · exact follows.noWord (by decide) (by decide)
  · intro c isFirst
    exact (follows.noSign c isFirst).1
  · exact follows.noSign
  · trivial

/-! ## Restyled pieces -/

/-- Behind a token, restyled pieces begin with blanks or with what may follow the token. -/
theorem Reads.follows {before last finish : List Char} {pieces others : List Piece}
    {tokens : List Token} {kind : Kind} (reads : Reads before pieces last tokens)
    (opens : Opens (Touching kind) (input tokens)) (restyled : List.Forall₂ Restyled pieces others)
    (blank : Blank finish) : Follows kind (joined others finish) := by
  have spaced {gap text : List Char} (gapBlank : Blank gap) (behind : Follows kind text) :
      Follows kind (gap ++ text) := by
    cases gap with
    | nil => exact behind
    | cons c gap =>
      intro first isFirst
      cases isFirst
      exact .inl (gapBlank c List.mem_cons_self)
  cases reads with
  | finish =>
    cases restyled
    have finished : Follows kind (finish ++ []) := spaced blank (by simp [Follows, Front])
    rwa [List.append_nil] at finished
  | @token _ gap lexeme _ pieces next value tokens _ filled fits =>
    cases restyled with
    | @cons _ other _ others restyle =>
      obtain ⟨otherFilled, ⟨held, otherFits⟩, -⟩ := restyle.reworded.fits filled fits
      rw [input_cons fits.noEnd] at opens
      have touching : Touching kind next := opens _ rfl
      rw [joined_cons]
      apply spaced restyle.blank
      obtain ⟨c, rest, whole⟩ := List.exists_cons_of_ne_nil otherFilled
      rw [whole] at otherFits ⊢
      intro first isFirst
      cases isFirst
      exact .inr ⟨next, held, rest, otherFits, touching⟩

/-- Where a line ends, or the text does, there are only blanks in front of the line end in
restyled pieces. -/
theorem Reads.lineEnds {before last finish : List Char} {pieces others : List Piece}
    {tokens : List Token} (reads : Reads before pieces last tokens)
    (ends : Front (fun c => c = '\n') (joined pieces last))
    (restyled : List.Forall₂ Restyled pieces others) (blank : Blank finish) :
    Front (fun c => c = '\n') ((joined others finish).dropWhile isSpace) := by
  cases reads with
  | finish =>
    cases restyled
    have nothing : finish.dropWhile isSpace = [] := List.dropWhile_eq_nil_iff.mpr blank
    rw [joined, List.flatMap_nil, List.nil_append, nothing]
    simp [Front]
  | @token _ gap lexeme _ pieces next value tokens gapBlank filled fits =>
    cases restyled with
    | @cons _ other _ others restyle =>
      obtain ⟨c, rest, rfl⟩ := List.exists_cons_of_ne_nil filled
      rw [joined_cons] at ends ⊢
      rw [List.dropWhile_append_of_pos restyle.blank]
      obtain rfl : gap = [] := by
        cases gap with
        | nil => rfl
        | cons d gap => exact absurd (ends d rfl ▸ gapBlank d List.mem_cons_self) (by decide)
      obtain rfl : c = '\n' := ends c rfl
      have kept : other.lexeme = '\n' :: rest := by
        rcases restyle.reworded with kept | ⟨body, text, isRemark, -⟩
        · exact kept
        · cases isRemark
      rw [kept, List.cons_append, List.dropWhile_cons_of_neg (by decide)]
      simp [Front]

/-- Blanks in front of a text make nothing. -/
theorem Makes.gap {gap text : List Char} {made : List (Kind × Value)} (blank : Blank gap)
    (makes : Makes text made) : Makes (gap ++ text) made := by
  rw [← Makes.dropWhile_iff, List.dropWhile_append_of_pos blank, Makes.dropWhile_iff]
  exact makes

/-- A comment takes the blanks behind it into its text, up to the end of the line. -/
theorem Makes.comment {body after : List Char} {made : List (Kind × Value)} (onLine : '\n' ∉ body)
    (ends : Front (fun c => c = '\n') (after.dropWhile isSpace)) (makes : Makes after made) :
    ∃ value, Makes (remarkWord ++ body ++ after) ((.remark, value) :: made) := by
  have noEnd : '\n' ∉ body ++ after.takeWhile isSpace := by
    rw [List.mem_append]
    exact not_or_intro onLine fun member => absurd (List.mem_takeWhile_imp member) (by decide)
  have spelled : (Lexeme.remark (body ++ after.takeWhile isSpace)).Spelled
      (remarkWord ++ (body ++ after.takeWhile isSpace)) := ⟨noEnd, rfl⟩
  have found := Makes.spelled spelled ends rfl rfl (Makes.dropWhile_iff.mpr makes)
  rw [List.append_assoc remarkWord, List.append_assoc body, List.takeWhile_append_dropWhile,
    ← List.append_assoc] at found
  exact ⟨_, found⟩

/-- Restyled pieces of neighbouring tokens make tokens that agree with those in all that
counts. -/
theorem Reads.restyled {before last finish : List Char} {pieces others : List Piece}
    {tokens : List Token} (reads : Reads before pieces last tokens)
    (short : ∀ lexeme ∈ pieces.map Piece.lexeme, Short lexeme)
    (neighbours : Neighbours (input tokens)) (restyled : List.Forall₂ Restyled pieces others)
    (blank : Blank finish) :
    ∃ made, Makes (joined others finish) (made.map content) ∧ Akin made (input tokens) := by
  induction reads generalizing others with
  | finish =>
    cases restyled
    have nothing := Makes.gap blank Makes.nil
    rw [List.append_nil] at nothing
    exact ⟨[], nothing, rfl⟩
  | @token before gap lexeme last pieces kind value tokens _ filled fits isolated further
      inductionHypothesis =>
    cases restyled with
    | @cons _ other _ others restyle restyled =>
      rw [List.map_cons, List.forall_mem_cons] at short
      rw [input_cons fits.noEnd] at neighbours ⊢
      obtain ⟨touching, neighbours⟩ := List.isChain_cons.mp neighbours
      obtain ⟨made, makes, akin⟩ := inductionHypothesis short.2 neighbours restyled
      by_cases isRemark : kind = .remark
      · subst isRemark
        have comment : ∃ body, other.lexeme = remarkWord ++ body ∧ '\n' ∉ body := by
          obtain ⟨-, ⟨held, otherFits⟩, -⟩ := restyle.reworded.fits filled fits
          generalize other.lexeme = text at otherFits
          cases otherFits with
          | fixed isSpelling => cases isSpelling
          | @remark body onLine => exact ⟨body, rfl, onLine⟩
        obtain ⟨body, whole, onLine⟩ := comment
        obtain ⟨held, found⟩ := makes.comment onLine (further.lineEnds isolated restyled blank)
        refine ⟨⟨.remark, held, .absent, .absent⟩ :: made, ?_, ?_⟩
        · rw [joined_cons, whole]
          exact found.gap restyle.blank
        · exact congrArg (List.cons (.remark, .absent)) akin
      · have kept := (restyle.reworded.fits filled fits).2.2 isRemark
        have follows := further.follows touching restyled blank
        obtain ⟨found, spelled, ends, holds⟩ :=
          fits.lexeme filled (fits.isolated isRemark follows)
        have few := (Lexeme.excess?_eq_none_iff spelled holds).mpr short.1
        refine ⟨⟨kind, value, .absent, .absent⟩ :: made, ?_, ?_⟩
        · rw [joined_cons, kept]
          exact (makes.spelled spelled ends few holds).gap restyle.blank
        · exact congrArg (List.cons _) akin

end LineBasic.Token

namespace LineBasic.Source

open Token Program.Grammar

/-- The program of a source text is that of every text which has the same lexemes, up to what
comments say, and any blanks between them. In particular it stays without any blanks outside
of strings and comments.

The grammar allows only certain lexemes side by side. Such neighbours cannot be mistaken for one
lexeme when the blanks between them go, so the restyled pieces make tokens of the same kinds and
values, up to what comments say. The grammar derives the same program from these, wherever they
stand. -/
theorem program_restyled {source : String} {program : Program}
    (accepted : Source.program source = .ok program) :
    (∃ pieces last tokens, source.toList = joined pieces last ∧ Reads [] pieces last tokens) ∧
    ∀ pieces last tokens, source.toList = joined pieces last → Reads [] pieces last tokens →
      (∀ others finish, List.Forall₂ Restyled pieces others → Blank finish →
        Source.program (String.ofList (joined others finish)) = .ok program) ∧
      Source.program (String.ofList (pieces.flatMap Piece.lexeme)) = .ok program := by
  obtain ⟨tokens, scanned, read⟩ := program_eq_ok.mp accepted
  have written := (ofTokens_eq_ok_iff tokens program).mp read
  obtain ⟨pieces, last, whole, reads, short⟩ := scan_eq_ok_iff_reads.mp scanned
  have changed {others : List Piece} {finish : List Char}
      (restyled : List.Forall₂ Restyled pieces others) (blank : Blank finish) :
      Source.program (String.ofList (joined others finish)) = .ok program := by
    obtain ⟨made, makes, akin⟩ := reads.restyled short written.neighbours restyled blank
    rw [program_eq_ok_iff, String.toList_ofList]
    exact ⟨made, makes, written.congr akin⟩
  refine ⟨⟨pieces, last, tokens, whole, reads⟩, ?_⟩
  intro _ _ _ otherWhole otherReads
  -- A text consists of pieces in one way only.
  obtain ⟨rfl, rfl, -⟩ := reads.unique otherReads (whole.symm.trans otherWhole)
  constructor
  · intro others finish restyled blank
    exact changed restyled blank
  · have unspaced : List.Forall₂ Restyled pieces (pieces.map fun piece => ⟨[], piece.lexeme⟩) := by
      rw [List.forall₂_map_right_iff]
      apply List.forall₂_same.mpr
      intro piece _
      exact ⟨by simp [Blank], .inl rfl⟩
    have none : Blank [] := by simp [Blank]
    have found := changed unspaced none
    rwa [joined, List.flatMap_map, List.append_nil] at found

/-- Blanks go, others come, and the comment takes those behind it. -/
theorem program_restyled_comment :
    let program : Program := [⟨.number 1, [.input (.text "A"), .remark]⟩]
    Source.program "1 INPUT A : REM x" = .ok program ∧
      Source.program "1INPUTA\t: REMy  " = .ok program := by
  intro program
  have accepted : Source.program "1 INPUT A : REM x" = .ok program := by decide +kernel
  let pieces : List Piece := [⟨[], ['1']⟩, ⟨[' '], "INPUT".toList⟩, ⟨[' '], ['A']⟩, ⟨[' '], [':']⟩,
    ⟨[' '], remarkWord ++ [' ', 'x']⟩]
  let others : List Piece := [⟨[], ['1']⟩, ⟨[], "INPUT".toList⟩, ⟨[], ['A']⟩, ⟨['\t'], [':']⟩,
    ⟨[' '], remarkWord ++ ['y']⟩]
  have none : Blank [] := by simp [Blank]
  have one : Blank [' '] := by simp [Blank, isSpace]
  have tab : Blank ['\t'] := by simp [Blank, isSpace]
  obtain ⟨tokens, reads⟩ : ∃ tokens, Reads [] pieces [] tokens := by
    constructor
    apply Reads.token none (by simp) (.number (List.forall_mem_singleton.mpr (by decide)))
    · exact ⟨by simp [Back], by simp [Front, joined]; decide⟩
    apply Reads.token one (by decide) (.fixed (rfl : Kind.spelling? (.keyword .inputWord) = _))
      trivial
    apply Reads.token one (by simp) (.identifier rfl)
    · refine ⟨?_, by decide⟩
      intro word
      cases word <;> decide
    apply Reads.token one (by simp) (.fixed (rfl : Kind.spelling? .colon = _)) trivial
    apply Reads.token one (by simp) (.remark (by decide))
    · simp [Isolated, Front, joined]
    exact .finish none
  have restyled : List.Forall₂ Restyled pieces others := by
    refine .cons ⟨none, .inl rfl⟩ (.cons ⟨none, .inl rfl⟩ (.cons ⟨none, .inl rfl⟩
      (.cons ⟨tab, .inl rfl⟩ (.cons ⟨one, .inr ?_⟩ .nil))))
    exact ⟨[' ', 'x'], ['y'], rfl, rfl, by decide⟩
  have both : Blank [' ', ' '] := by simp [Blank, isSpace]
  have changed := ((program_restyled accepted).2 pieces [] _ rfl reads).1 others _ restyled both
  exact ⟨accepted, changed⟩

end LineBasic.Source
