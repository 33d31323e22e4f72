import LineBasic.Proofs.Spelling

/-!
# Cutting a text into lexemes

Scanning a text is cutting it into lexemes and giving each its place. The relation below
says how a text is cut, with what is left of it at hand, so that one cut can follow
another and no lexeme is split between the two. A text is scanned without an error
exactly when it is cut with nothing left, and its tokens are those of the lexemes at the
places that their lengths add up to. Otherwise what is left begins with no lexeme, or with a
number that has too many digits, and scanning fails there.

The kinds and values of tokens do not depend on their places.
-/

namespace LineBasic.Token

/-- The text is cut into the lexemes, none with too many digits, and this much of it is
left. -/
inductive Cuts : List Char → List Lexeme → List Char → Prop where
  | done (text : List Char) : Cuts text [] text
  | lexeme {text rest : List Char} {first : Lexeme} {others : List Lexeme}
      (found : lexeme? text = some first) (short : first.excess? = none)
      (further : Cuts (text.drop first.length) others rest) :
      Cuts text (first :: others) rest

namespace Cuts

/-- One cut follows another. -/
theorem trans {text between rest : List Char} {lexemes others : List Lexeme}
    (start : Cuts text lexemes between) (finish : Cuts between others rest) :
    Cuts text (lexemes ++ others) rest := by
  induction start with
  | done text => exact finish
  | lexeme found short further inductionHypothesis =>
    exact .lexeme found short (inductionHypothesis finish)

/-- A lexeme is cut off where it is spelled, unless what follows continues it. -/
theorem spelled {spelling rest : List Char} {lexeme : Lexeme} (isSpelled : lexeme.Spelled spelling)
    (ends : lexeme.Ends rest) (short : lexeme.excess? = none) :
    Cuts (spelling ++ rest) [lexeme] rest := by
  refine .lexeme (lexeme?_of_spelled isSpelled ends) short ?_
  rw [isSpelled.length_eq, List.drop_left]
  exact .done rest

end Cuts

/-- The tokens of lexemes of which the first begins at an offset on a line, and the token
that ends the text. -/
def placed : List Lexeme → (offset line : Nat) → List Token
  | [], offset, line => [endOfFile line offset]
  | first :: others, offset, line =>
    first.consToken line offset (placed others (offset + first.length) (line + first.lineEnds))

/-- How many characters lexemes take. -/
def extent : List Lexeme → Nat
  | [] => 0
  | first :: others => first.length + extent others

/-- How many source lines lexemes end. -/
def lineEnds : List Lexeme → Nat
  | [] => 0
  | first :: others => first.lineEnds + lineEnds others

/-- Scanning does not get past the front of what is left, at an offset on a line, and this is
the error. -/
inductive Stops (source : List Char) (offset line : Nat) : List Char → ScanError → Prop where
  /-- No lexeme stands there. -/
  | strange {c : Char} {rest : List Char} (none : lexeme? (c :: rest) = none) :
      Stops source offset line (c :: rest) (.at source c line offset)
  /-- A number with too many digits stands there. -/
  | long {text : List Char} {lexeme : Lexeme} {count : Nat} (found : lexeme? text = some lexeme)
      (tooMany : lexeme.excess? = some count) :
      Stops source offset line text (.tooManyDigits count)

/-- Every text is cut up to its end, or up to a place that scanning does not get past. -/
theorem cuts_total (source text : List Char) (offset line : Nat) :
    ∃ lexemes rest, Cuts text lexemes rest ∧ (rest = [] ∨
      ∃ error, Stops source (offset + extent lexemes) (line + lineEnds lexemes) rest error) := by
  generalize size : text.length = length
  induction length using Nat.strongRecOn generalizing text offset line with
  | ind length inductionHypothesis =>
    subst size
    cases text with
    | nil => exact ⟨[], [], .done [], .inl rfl⟩
    | cons c text =>
      cases found : lexeme? (c :: text) with
      | none => exact ⟨[], c :: text, .done _, .inr ⟨_, .strange found⟩⟩
      | some lexeme =>
        cases excess : lexeme.excess? with
        | some count => exact ⟨[], c :: text, .done _, .inr ⟨_, .long found excess⟩⟩
        | none =>
          obtain ⟨positive, within⟩ := lexeme?_length found
          have shorter : ((c :: text).drop lexeme.length).length < (c :: text).length := by
            rw [List.length_drop]
            omega
          obtain ⟨lexemes, rest, cut, stopped⟩ := inductionHypothesis _ shorter
            ((c :: text).drop lexeme.length) (offset + lexeme.length) (line + lexeme.lineEnds) rfl
          refine ⟨lexeme :: lexemes, rest, .lexeme found excess cut, ?_⟩
          rwa [Nat.add_assoc, Nat.add_assoc] at stopped

/-- A text of which nothing is left uncut is scanned, and gives the placed tokens. -/
theorem Cuts.scanned {source text rest : List Char} {lexemes : List Lexeme}
    (cut : Cuts text lexemes rest) (finished : rest = []) (offset line : Nat) :
    scanFrom source 0 text offset line = .ok (placed lexemes offset line) := by
  induction cut generalizing offset line with
  | done text =>
    subst finished
    rfl
  | lexeme found short further inductionHypothesis =>
    rw [scanFrom_lexeme source _ _ offset line found short, inductionHypothesis finished]
    rfl

/-- Scanning fails at a place that it does not get past. -/
theorem Cuts.failed {source text rest : List Char} {lexemes : List Lexeme} {error : ScanError}
    (cut : Cuts text lexemes rest) {offset line : Nat}
    (stops : Stops source (offset + extent lexemes) (line + lineEnds lexemes) rest error) :
    scanFrom source 0 text offset line = .error error := by
  induction cut generalizing offset line with
  | done text =>
    cases stops with
    | strange none =>
      rw [scanFrom, none]
      rfl
    | long found tooMany =>
      cases text with
      | nil => cases found
      | cons c text =>
        rw [scanFrom, found]
        simp only [tooMany]
  | @lexeme text rest first others found short further inductionHypothesis =>
    have stops : Stops source (offset + first.length + extent others)
        (line + first.lineEnds + lineEnds others) rest error := by
      rw [Nat.add_assoc, Nat.add_assoc]
      exact stops
    rw [scanFrom_lexeme source _ _ offset line found short, inductionHypothesis stops]
    rfl

/-- Scanning succeeds exactly if nothing is left uncut, and gives the placed tokens. -/
theorem scanFrom_eq_ok_iff {source text : List Char} {offset line : Nat} {tokens : List Token} :
    scanFrom source 0 text offset line = .ok tokens ↔
      ∃ lexemes, Cuts text lexemes [] ∧ tokens = placed lexemes offset line := by
  constructor
  · intro scanned
    obtain ⟨lexemes, rest, cut, rfl | ⟨error, stops⟩⟩ := cuts_total source text offset line
    · rw [cut.scanned rfl] at scanned
      exact ⟨lexemes, cut, (Except.ok.inj scanned).symm⟩
    · rw [cut.failed stops] at scanned
      cases scanned
  · rintro ⟨lexemes, cut, rfl⟩
    exact cut.scanned rfl offset line

/-- Scanning fails exactly if it does not get past some place, with the error for it. -/
theorem scanFrom_eq_error_iff {source text : List Char} {offset line : Nat} {error : ScanError} :
    scanFrom source 0 text offset line = .error error ↔
      ∃ lexemes rest, Cuts text lexemes rest ∧
        Stops source (offset + extent lexemes) (line + lineEnds lexemes) rest error := by
  constructor
  · intro failed
    obtain ⟨lexemes, rest, cut, rfl | ⟨found, stops⟩⟩ := cuts_total source text offset line
    · rw [cut.scanned rfl] at failed
      cases failed
    · rw [cut.failed stops] at failed
      cases failed
      exact ⟨lexemes, rest, cut, stops⟩
  · rintro ⟨lexemes, rest, cut, stops⟩
    exact cut.failed stops

/-- A source text is scanned exactly if nothing of it is left uncut. -/
theorem scan_eq_ok_iff {source : String} {tokens : List Token} :
    scan source = .ok tokens ↔
      ∃ lexemes, Cuts source.toList lexemes [] ∧ tokens = placed lexemes 0 1 :=
  scanFrom_eq_ok_iff

/-! ## Kinds and values -/

/-- A token without its place. -/
def content (token : Token) : Kind × Value := (token.kind, token.value)

/-- The kinds and values of the tokens that lexemes make. -/
def contents (lexemes : List Lexeme) : List (Kind × Value) :=
  lexemes.filterMap Lexeme.content?

/-- Placed tokens have the contents of their lexemes, and behind them stands the token that
ends the text. -/
theorem placed_contents (lexemes : List Lexeme) (offset line : Nat) :
    ∃ tokens column last, placed lexemes offset line = tokens ++ [endOfFile last column] ∧
      tokens.map content = contents lexemes := by
  induction lexemes generalizing offset line with
  | nil => exact ⟨[], offset, line, rfl, rfl⟩
  | cons first others inductionHypothesis =>
    obtain ⟨tokens, column, last, split, same⟩ :=
      inductionHypothesis (offset + first.length) (line + first.lineEnds)
    rw [placed, split, Lexeme.consToken, contents]
    cases made : first.content? with
    | none =>
      refine ⟨tokens, column, last, rfl, ?_⟩
      rw [List.filterMap_cons_none made]
      exact same
    | some pair =>
      obtain ⟨kind, value⟩ := pair
      refine ⟨⟨kind, value, .number line, .number offset⟩ :: tokens, column, last, rfl, ?_⟩
      rw [List.filterMap_cons_some made, List.map_cons, content]
      exact congrArg ((kind, value) :: ·) same

/-- The text is cut, with nothing left, into lexemes that make tokens of these kinds and
values. -/
def Makes (text : List Char) (made : List (Kind × Value)) : Prop :=
  ∃ lexemes, Cuts text lexemes [] ∧ contents lexemes = made

/-- Scanning gives tokens with the contents that the text makes, and behind them the token
that ends the text. -/
theorem makes_of_scan {source : String} {tokens : List Token} (scanned : scan source = .ok tokens) :
    ∃ front line column, tokens = front ++ [endOfFile line column] ∧
      Makes source.toList (front.map content) := by
  obtain ⟨lexemes, cut, rfl⟩ := scan_eq_ok_iff.mp scanned
  obtain ⟨front, column, line, split, same⟩ := placed_contents lexemes 0 1
  exact ⟨front, line, column, split, lexemes, cut, same.symm⟩

/-- A text that makes tokens is scanned, and gives them. -/
theorem scan_of_makes {source : String} {made : List (Kind × Value)}
    (makes : Makes source.toList made) :
    ∃ front line column, scan source = .ok (front ++ [endOfFile line column]) ∧
      front.map content = made := by
  obtain ⟨lexemes, cut, rfl⟩ := makes
  obtain ⟨front, column, line, split, same⟩ := placed_contents lexemes 0 1
  exact ⟨front, line, column, scan_eq_ok_iff.mpr ⟨lexemes, cut, split.symm⟩, same⟩

namespace Makes

/-- An empty text makes nothing. -/
theorem nil : Makes [] [] := ⟨[], .done [], rfl⟩

/-- A spelling makes the token of its lexeme, in front of what the rest makes, unless the
rest continues it. -/
theorem spelled {spelling rest : List Char} {lexeme : Lexeme} {first : Kind × Value}
    {others : List (Kind × Value)} (isSpelled : lexeme.Spelled spelling) (ends : lexeme.Ends rest)
    (short : lexeme.excess? = none) (holds : lexeme.content? = some first)
    (further : Makes rest others) : Makes (spelling ++ rest) (first :: others) := by
  obtain ⟨lexemes, cut, rfl⟩ := further
  refine ⟨lexeme :: lexemes, (Cuts.spelled isSpelled ends short).trans cut, ?_⟩
  rw [contents, List.filterMap_cons_some holds]
  rfl

/-- Blanks at the front make nothing. -/
theorem dropWhile_iff {text : List Char} {made : List (Kind × Value)} :
    Makes (text.dropWhile isSpace) made ↔ Makes text made := by
  cases text with
  | nil => rfl
  | cons c text =>
    by_cases space : isSpace c = true
    · have spelled : (Lexeme.blanks ((c :: text).takeWhile isSpace).length).Spelled
          ((c :: text).takeWhile isSpace) :=
        ⟨by simp [space], fun _ => List.mem_takeWhile_imp, rfl⟩
      have found := lexeme?_of_spelled spelled (front_dropWhile isSpace (c :: text))
      have left : ((c :: text).takeWhile isSpace ++ (c :: text).dropWhile isSpace).drop
          ((c :: text).takeWhile isSpace).length = (c :: text).dropWhile isSpace := List.drop_left
      rw [List.takeWhile_append_dropWhile] at found left
      constructor
      · rintro ⟨lexemes, cut, rfl⟩
        exact ⟨_ :: lexemes, .lexeme found rfl (left.symm ▸ cut), rfl⟩
      · rintro ⟨lexemes, cut, rfl⟩
        cases cut with
        | @lexeme _ _ first others alsoFound short further =>
          rw [found] at alsoFound
          cases alsoFound
          exact ⟨others, left ▸ further, rfl⟩
    · rw [List.dropWhile_cons_of_neg space]

/-- A space in front makes no difference. -/
theorem space {text : List Char} {made : List (Kind × Value)} (makes : Makes text made) :
    Makes (' ' :: text) made := by
  rw [← dropWhile_iff, List.dropWhile_cons_of_pos rfl, dropWhile_iff]
  exact makes

end Makes

end LineBasic.Token
