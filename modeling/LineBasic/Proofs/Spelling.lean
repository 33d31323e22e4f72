import LineBasic.Token.Scan
import Mathlib.Data.List.TakeWhile

/-!
# How lexemes are spelled

A lexeme stands at the front of a text exactly when the text begins with a spelling of
the lexeme and what follows does not continue it. Which spellings a lexeme has says
nothing about its surroundings, and what continues it is stated apart: a further blank
or digit, a longer sign, the rest of a reserved word, or any character up to the end of
the line.

The reserved words and signs are tried in a fixed order. All that matters of this order
is that none of them begins a later one.
-/

namespace LineBasic.Token

open Text

/-! ## Characters -/

/-- Below the second block of digits, the only digits are those of ASCII. -/
theorem digit?_ascii {c : Char} (low : c.toNat < 0x660) :
    digit? c = if 0x30 ≤ c.toNat ∧ c.toNat < 0x3a then some (c.toNat - 0x30) else none := by
  have later : (digitZeros.tail.find? fun first =>
      decide (first ≤ c.toNat) && decide (c.toNat < first + 10)) = none := by
    rw [List.find?_eq_none]
    intro first member
    have high : ∀ first ∈ digitZeros.tail, 0x660 ≤ first := by decide
    have := high first member
    simp only [Bool.and_eq_true, decide_eq_true_eq]
    omega
  have first : digitZeros = 0x30 :: digitZeros.tail := rfl
  rw [digit?, first, List.find?_cons, later]
  by_cases inside : 0x30 ≤ c.toNat ∧ c.toNat < 0x3a
  · simp [inside]
  · rw [if_neg inside]
    have outside : (decide (0x30 ≤ c.toNat) && decide (c.toNat < 0x30 + 10)) = false := by
      simp only [Bool.and_eq_false_iff, decide_eq_false_iff_not]
      omega
    simp [outside]

/-- No letter of a variable is a digit, a space or a quote. -/
theorem isVariable_other {c : Char} (letter : isVariable c = true) :
    isDigit c = false ∧ isSpace c = false ∧ c ≠ '"' := by
  have bounds : 65 ≤ c.toNat ∧ c.toNat ≤ 90 := by
    simpa [isVariable, Char.le_def, UInt32.le_iff_toNat_le] using letter
  refine ⟨?_, ?_, ?_⟩
  · rw [isDigit, digit?_ascii (by omega), if_neg (by omega)]
    rfl
  · simp only [isSpace, Bool.or_eq_false_iff, beq_eq_false_iff_ne, ne_eq]
    constructor
    · rintro rfl
      exact absurd bounds (by decide)
    · rintro rfl
      exact absurd bounds (by decide)
  · rintro rfl
    exact absurd bounds (by decide)

/-- No blank is a digit. -/
theorem isSpace_noDigit {c : Char} (space : isSpace c = true) : isDigit c = false := by
  have either : c = ' ' ∨ c = '\t' := by simpa [isSpace] using space
  rcases either with rfl | rfl
  · decide
  · decide

/-- A run of digits has a value for every character. -/
theorem mem_digits {text : List Char} {digit : Nat} (member : digit ∈ text.filterMap digit?) :
    digit < 10 := by
  obtain ⟨c, -, value⟩ := List.mem_filterMap.mp member
  rw [digit?, Option.map_eq_some_iff] at value
  obtain ⟨first, found, rfl⟩ := value
  have near := List.find?_some found
  simp only [Bool.and_eq_true, decide_eq_true_eq] at near
  omega

/-! ## Runs -/

/-- The first character, if there is one, satisfies a test. -/
def Front (test : Char → Prop) (text : List Char) : Prop := ∀ c ∈ text.head?, test c

/-- A run is taken whole from in front of a text that does not continue it. -/
theorem takeWhile_run {test : Char → Bool} {run rest : List Char}
    (inside : ∀ c ∈ run, test c = true) (outside : Front (fun c => test c = false) rest) :
    (run ++ rest).takeWhile test = run := by
  rw [List.takeWhile_append_of_pos inside]
  cases rest with
  | nil => exact List.append_nil run
  | cons c rest => rw [List.takeWhile_cons, if_neg (by simp [outside c rfl]), List.append_nil]

/-- A text all of which satisfies the test is its own run. -/
theorem takeWhile_eq_self {test : Char → Bool} {text : List Char}
    (inside : ∀ c ∈ text, test c = true) : text.takeWhile test = text := by
  have whole : (text ++ []).takeWhile test = text := takeWhile_run inside (by simp [Front])
  rwa [List.append_nil] at whole

/-- A text none of which satisfies the test has no run in front. -/
theorem dropWhile_eq_self {test : Char → Bool} {text : List Char}
    (outside : ∀ c ∈ text, test c = false) : text.dropWhile test = text := by
  rw [List.dropWhile_eq_self_iff]
  intro filled
  simp [outside _ (List.getElem_mem filled)]

/-- What a run leaves does not continue it. -/
theorem front_dropWhile (test : Char → Bool) (text : List Char) :
    Front (fun c => test c = false) (text.dropWhile test) := by
  induction text with
  | nil => simp [Front]
  | cons c text inductionHypothesis =>
    rw [List.dropWhile_cons]
    split
    · exact inductionHypothesis
    · next outside => simpa [Front] using outside

/-! ## Spellings and what follows them -/

/-- The text spells the lexeme. Blanks are counted and digits have values of their own, so
different texts may spell one lexeme. -/
def Lexeme.Spelled : Lexeme → List Char → Prop
  | .blanks count, text => text ≠ [] ∧ (∀ c ∈ text, isSpace c = true) ∧ count = text.length
  | .number digits, text =>
      text ≠ [] ∧ (∀ c ∈ text, isDigit c = true) ∧ digits = text.filterMap digit?
  | .fixed kind spelling, text => (kind, spelling) ∈ fixedSpellings ∧ text = spelling
  | .remark body, text => '\n' ∉ body ∧ text = remarkWord ++ body
  | .identifier letter, text => isVariable letter = true ∧ text = [letter]
  | .string body, text => (∀ c ∈ body, c ≠ '"' ∧ c ≠ '\n') ∧ text = '"' :: (body ++ ['"'])

/-- What follows a spelling of the lexeme does not continue it. -/
def Lexeme.Ends : Lexeme → List Char → Prop
  | .blanks _, rest => Front (fun c => isSpace c = false) rest
  | .number _, rest => Front (fun c => isDigit c = false) rest
  | .fixed _ spelling, rest =>
      ∀ entry ∈ fixedSpellings, entry.2 <+: spelling ++ rest → entry.2 <+: spelling
  | .remark _, rest => Front (fun c => c = '\n') rest
  | .identifier letter, rest =>
      (∀ entry ∈ fixedSpellings, ¬ entry.2 <+: letter :: rest) ∧ ¬ remarkWord <+: letter :: rest
  | .string _, _ => True

/-- A spelling has as many characters as the lexeme takes. -/
theorem Lexeme.Spelled.length_eq {lexeme : Lexeme} {text : List Char}
    (spelled : lexeme.Spelled text) : lexeme.length = text.length := by
  cases lexeme with
  | blanks count => exact spelled.2.2
  | number digits =>
    obtain ⟨-, run, rfl⟩ := spelled
    have whole : text.takeWhile isDigit = text := takeWhile_eq_self run
    rw [Lexeme.length, ← whole, length_digits]
  | fixed kind spelling => exact congrArg List.length spelled.2.symm
  | remark body =>
    obtain ⟨-, rfl⟩ := spelled
    simp [Lexeme.length]
  | identifier letter => exact congrArg List.length spelled.2.symm
  | string body =>
    obtain ⟨-, rfl⟩ := spelled
    simp [Lexeme.length]

/-- A spelling is a line end, or it stands on one line. -/
theorem Lexeme.Spelled.oneLine {lexeme : Lexeme} {text : List Char}
    (spelled : lexeme.Spelled text) :
    lexeme.lineEnds = 1 ∧ text = ['\n'] ∨ lexeme.lineEnds = 0 ∧ '\n' ∉ text := by
  cases lexeme with
  | blanks count =>
    exact .inr ⟨rfl, fun member => absurd (spelled.2.1 _ member) (by decide)⟩
  | number digits =>
    exact .inr ⟨rfl, fun member => absurd (spelled.2.1 _ member) (by decide)⟩
  | fixed kind spelling =>
    have listed : ∀ entry ∈ fixedSpellings,
        (Lexeme.fixed entry.1 entry.2).lineEnds = 1 ∧ entry.2 = ['\n'] ∨
          (Lexeme.fixed entry.1 entry.2).lineEnds = 0 ∧ '\n' ∉ entry.2 := by decide
    obtain ⟨member, rfl⟩ := spelled
    exact listed _ member
  | remark body =>
    obtain ⟨onLine, rfl⟩ := spelled
    refine .inr ⟨rfl, ?_⟩
    rw [List.mem_append]
    exact not_or_intro (by decide) onLine
  | identifier letter =>
    obtain ⟨isLetter, rfl⟩ := spelled
    refine .inr ⟨rfl, ?_⟩
    rw [List.mem_singleton]
    rintro rfl
    exact absurd isLetter (by decide)
  | string body =>
    obtain ⟨inside, rfl⟩ := spelled
    refine .inr ⟨rfl, ?_⟩
    intro member
    simp only [List.mem_cons, List.mem_append, List.not_mem_nil, or_false] at member
    rcases member with isQuote | member | isQuote
    · exact absurd isQuote (by decide)
    · exact (inside _ member).2 rfl
    · exact absurd isQuote (by decide)

/-- A lexeme ends as many lines as its spelling has line ends. -/
theorem Lexeme.Spelled.lineEnds_eq {lexeme : Lexeme} {text : List Char}
    (spelled : lexeme.Spelled text) : lexeme.lineEnds = text.count '\n' := by
  rcases spelled.oneLine with ⟨one, rfl⟩ | ⟨none, onLine⟩
  · exact one
  · rw [none, List.count_eq_zero.mpr onLine]

/-! ## Reserved words and signs -/

/-- None of the reserved words and signs begins one that is tried later. -/
theorem fixed_order :
    fixedSpellings.Pairwise fun earlier later => ¬ earlier.2 <+: later.2 := by
  decide

/-- Reserved words and signs begin neither like a number nor like blanks nor like a
string. -/
theorem fixed_front : ∀ entry ∈ fixedSpellings,
    Front (fun c => isDigit c = false ∧ isSpace c = false ∧ c ≠ '"') entry.2 := by
  have checked : (fixedSpellings.all fun entry =>
      entry.2.head?.all fun c => !isDigit c && !isSpace c && c != '"') = true := by decide
  intro entry member c first
  have passed := List.all_eq_true.mp checked entry member
  rw [Option.mem_def.mp first] at passed
  simpa [and_assoc] using passed

/-- The first reserved word or sign with which a text begins is found exactly if no longer
one stands there. -/
theorem find_fixed_iff {kind : Kind} {spelling text : List Char} :
    (fixedSpellings.find? fun entry => entry.2.isPrefixOf text) = some (kind, spelling) ↔
      (kind, spelling) ∈ fixedSpellings ∧ spelling <+: text ∧
        ∀ entry ∈ fixedSpellings, entry.2 <+: text → entry.2 <+: spelling := by
  constructor
  · intro found
    obtain ⟨begins, earlier, later, split, none⟩ := List.find?_eq_some_iff_append.mp found
    have begins : spelling <+: text := List.isPrefixOf_iff_prefix.mp begins
    refine ⟨List.mem_of_find?_eq_some found, begins, ?_⟩
    intro entry member alsoBegins
    rw [split] at member
    rcases List.mem_append.mp member with before | here
    · have := none entry before
      simp [List.isPrefixOf_iff_prefix.mpr alsoBegins] at this
    · rcases List.mem_cons.mp here with rfl | after
      · exact List.prefix_rfl
      · have order := fixed_order
        rw [split, List.pairwise_append] at order
        have shorter := (List.pairwise_cons.mp order.2.1).1 entry after
        exact (List.prefix_or_prefix_of_prefix begins alsoBegins).resolve_left shorter
  · rintro ⟨member, begins, longest⟩
    cases found : fixedSpellings.find? fun entry => entry.2.isPrefixOf text with
    | none =>
      have := List.find?_eq_none.mp found _ member
      simp [List.isPrefixOf_iff_prefix.mpr begins] at this
    | some entry =>
      obtain ⟨entryBegins, earlier, later, split, none⟩ := List.find?_eq_some_iff_append.mp found
      have inner : entry.2 <+: spelling :=
        longest entry (List.mem_of_find?_eq_some found) (List.isPrefixOf_iff_prefix.mp entryBegins)
      have order := fixed_order
      rw [split] at member order
      rcases List.mem_append.mp member with before | here
      · have := none _ before
        simp [List.isPrefixOf_iff_prefix.mpr begins] at this
      · rcases List.mem_cons.mp here with rfl | after
        · rfl
        · rw [List.pairwise_append] at order
          exact absurd inner ((List.pairwise_cons.mp order.2.1).1 _ after)

/-- No reserved word or sign is found exactly if the text begins with none. -/
theorem find_fixed_none_iff {text : List Char} :
    (fixedSpellings.find? fun entry => entry.2.isPrefixOf text) = none ↔
      ∀ entry ∈ fixedSpellings, ¬ entry.2 <+: text := by
  simp only [List.find?_eq_none, List.isPrefixOf_iff_prefix]

/-- Nothing continues a reserved word or sign that begins no other. -/
theorem fixed_ends {kind : Kind} {spelling : List Char} (rest : List Char)
    (alone : ∀ entry ∈ fixedSpellings, spelling <+: entry.2 → entry.2 = spelling) :
    (Lexeme.fixed kind spelling).Ends rest := by
  intro entry member begins
  rcases List.prefix_or_prefix_of_prefix begins (List.prefix_append spelling rest) with
    shorter | longer
  · exact shorter
  · exact ⟨[], by rw [List.append_nil, alone entry member longer]⟩

/-! ## The lexeme at the front -/

/-- The string behind an opening quote reaches up to the next quote, with no line end in
between. -/
theorem string?_eq_some_iff {text : List Char} {lexeme : Lexeme} :
    string? text = some lexeme ↔
      ∃ body rest, lexeme = .string body ∧ (∀ c ∈ body, c ≠ '"' ∧ c ≠ '\n') ∧
        text = body ++ '"' :: rest := by
  have run : ∀ {c : Char}, (c != '"' && c != '\n') = true ↔ c ≠ '"' ∧ c ≠ '\n' := by simp
  constructor
  · intro found
    simp only [string?] at found
    split at found
    · next rest closed =>
      refine ⟨_, rest, (Option.some.inj found).symm, ?_, ?_⟩
      · intro c member
        have inRun := List.mem_takeWhile_imp member
        exact run.mp inRun
      · rw [← closed, List.takeWhile_append_dropWhile]
    · cases found
  · rintro ⟨body, rest, rfl, inside, rfl⟩
    have outside : Front (fun c => (c != '"' && c != '\n') = false) ('"' :: rest) := by
      simp [Front]
    have inside : ∀ c ∈ body, (c != '"' && c != '\n') = true := fun c member =>
      run.mpr (inside c member)
    simp only [string?]
    rw [takeWhile_run inside outside, List.dropWhile_append_of_pos inside]
    simp

/-- A lexeme at the front of a text is spelled there, and what follows does not continue
it. The cases are those of the definition, in its order. -/
theorem spelled_of_lexeme? {text : List Char} {lexeme : Lexeme}
    (found : lexeme? text = some lexeme) :
    ∃ spelling rest, text = spelling ++ rest ∧ lexeme.Spelled spelling ∧ lexeme.Ends rest := by
  cases text with
  | nil => simp [lexeme?] at found
  | cons c text =>
    have runs (test : Char → Bool) :
        c :: text = (c :: text).takeWhile test ++ (c :: text).dropWhile test :=
      (List.takeWhile_append_dropWhile).symm
    simp only [lexeme?] at found
    split at found
    · next digit =>
      cases found
      refine ⟨_, _, runs isDigit, ⟨?_, fun _ => List.mem_takeWhile_imp, rfl⟩, front_dropWhile _ _⟩
      simp [digit]
    · split at found
      · next space =>
        cases found
        refine ⟨_, _, runs isSpace, ⟨?_, fun _ => List.mem_takeWhile_imp, rfl⟩,
          front_dropWhile _ _⟩
        simp [space]
      · split at found
        · next quote =>
          obtain ⟨body, rest, rfl, inside, rfl⟩ := string?_eq_some_iff.mp found
          exact ⟨'"' :: (body ++ ['"']), rest, by simp [quote], ⟨inside, rfl⟩, trivial⟩
        · split at found
          · next kind spelling entry =>
            cases found
            obtain ⟨member, ⟨rest, whole⟩, longest⟩ := find_fixed_iff.mp entry
            rw [← whole] at longest
            exact ⟨spelling, rest, whole.symm, ⟨member, rfl⟩, longest⟩
          · next noWord =>
            split at found
            · next begins =>
              cases found
              obtain ⟨after, whole⟩ := List.isPrefixOf_iff_prefix.mp begins
              rw [← whole, List.drop_left]
              refine ⟨_, after.dropWhile (· != '\n'), ?_, ⟨?_, rfl⟩, ?_⟩
              · rw [List.append_assoc, List.takeWhile_append_dropWhile]
              · intro member
                have := List.mem_takeWhile_imp member
                simp at this
              · intro d first
                simpa using front_dropWhile (· != '\n') after d first
            · next noRemark =>
              split at found
              · next letter =>
                cases found
                refine ⟨[c], text, rfl, ⟨letter, rfl⟩, find_fixed_none_iff.mp noWord, ?_⟩
                rwa [← List.isPrefixOf_iff_prefix]
              · cases found

/-- No reserved word or sign begins like a comment. -/
theorem fixed_remark (rest : List Char) :
    ∀ entry ∈ fixedSpellings, ¬ entry.2 <+: remarkWord ++ rest := by
  intro entry member begins
  have apart : ∀ entry ∈ fixedSpellings, ¬ entry.2 <+: remarkWord ∧ ¬ remarkWord <+: entry.2 := by
    decide
  rcases List.prefix_or_prefix_of_prefix begins (List.prefix_append remarkWord rest) with
    shorter | longer
  · exact (apart entry member).1 shorter
  · exact (apart entry member).2 longer

/-- A lexeme is found where it is spelled, unless what follows continues it. -/
theorem lexeme?_of_spelled {spelling rest : List Char} {lexeme : Lexeme}
    (spelled : lexeme.Spelled spelling) (ends : lexeme.Ends rest) :
    lexeme? (spelling ++ rest) = some lexeme := by
  cases lexeme with
  | blanks count =>
    obtain ⟨filled, run, rfl⟩ := spelled
    have whole := takeWhile_run run ends
    cases spelling with
    | nil => exact absurd rfl filled
    | cons c spelling =>
      have space : isSpace c = true := run c List.mem_cons_self
      have noDigit : isDigit c = false := isSpace_noDigit space
      rw [List.cons_append] at whole ⊢
      rw [lexeme?, if_neg (by simp [noDigit]), if_pos space, whole]
  | number digits =>
    obtain ⟨filled, run, rfl⟩ := spelled
    have whole := takeWhile_run run ends
    cases spelling with
    | nil => exact absurd rfl filled
    | cons c spelling =>
      have digit : isDigit c = true := run c List.mem_cons_self
      rw [List.cons_append] at whole ⊢
      rw [lexeme?, if_pos digit, whole]
  | fixed kind spelling =>
    obtain ⟨member, rfl⟩ := spelled
    have found := find_fixed_iff.mpr ⟨member, List.prefix_append spelling rest, ends⟩
    have front := fixed_front _ member
    cases spelling with
    | nil => exact absurd rfl (spelling_ne_nil _ member)
    | cons c spelling =>
      obtain ⟨noDigit, noSpace, noQuote⟩ := front c rfl
      rw [List.cons_append] at found ⊢
      rw [lexeme?, if_neg (by simp [noDigit]), if_neg (by simp [noSpace]), if_neg noQuote, found]
  | remark body =>
    obtain ⟨inside, rfl⟩ := spelled
    have run : (body ++ rest).takeWhile (· != '\n') = body := by
      refine takeWhile_run ?_ ?_
      · intro c member
        simp only [bne_iff_ne, ne_eq]
        rintro rfl
        exact inside member
      · intro c first
        simp [ends c first]
    have none : (fixedSpellings.find? fun entry =>
        entry.2.isPrefixOf ('R' :: 'E' :: 'M' :: (body ++ rest))) = none :=
      find_fixed_none_iff.mpr (fixed_remark (body ++ rest))
    have begins : remarkWord.isPrefixOf ('R' :: 'E' :: 'M' :: (body ++ rest)) = true :=
      List.isPrefixOf_iff_prefix.mpr (List.prefix_append remarkWord (body ++ rest))
    change lexeme? ('R' :: 'E' :: 'M' :: (body ++ rest)) = _
    rw [lexeme?, if_neg (by decide), if_neg (by decide), if_neg (by decide), none]
    simp only
    rw [if_pos begins]
    change some (Lexeme.remark ((body ++ rest).takeWhile (· != '\n'))) = _
    rw [run]
  | identifier letter =>
    obtain ⟨isLetter, rfl⟩ := spelled
    obtain ⟨noDigit, noSpace, noQuote⟩ := isVariable_other isLetter
    have none := find_fixed_none_iff.mpr ends.1
    have noRemark : ¬ remarkWord.isPrefixOf (letter :: rest) = true := by
      rw [List.isPrefixOf_iff_prefix]
      exact ends.2
    rw [List.singleton_append, lexeme?, if_neg (by simp [noDigit]), if_neg (by simp [noSpace]),
      if_neg noQuote, none]
    simp only
    rw [if_neg noRemark, if_pos isLetter]
  | string body =>
    obtain ⟨inside, rfl⟩ := spelled
    rw [List.cons_append, lexeme?, if_neg (by decide), if_neg (by decide), if_pos rfl]
    exact string?_eq_some_iff.mpr ⟨body, rest, rfl, inside, by simp⟩

/-- The lexeme at the front of a text is the one that is spelled there and that what follows
does not continue. -/
theorem lexeme?_eq_some_iff {text : List Char} {lexeme : Lexeme} :
    lexeme? text = some lexeme ↔
      ∃ spelling rest, text = spelling ++ rest ∧ lexeme.Spelled spelling ∧ lexeme.Ends rest := by
  constructor
  · exact spelled_of_lexeme?
  · rintro ⟨spelling, rest, rfl, spelled, ends⟩
    exact lexeme?_of_spelled spelled ends

/-- A line end stands for itself at the front of every text. -/
theorem lexeme?_newline (rest : List Char) :
    lexeme? ('\n' :: rest) = some (.fixed .newline ['\n']) := by
  have spelled : (Lexeme.fixed .newline ['\n']).Spelled ['\n'] := ⟨by decide, rfl⟩
  exact lexeme?_of_spelled spelled (fixed_ends rest (by decide))

end LineBasic.Token
