import LineBasic.Proofs.GrammarSoundness

/-!
# How far reading looks

A reading step looks at the tokens that it passes and at the one where it stops, and no
further. In front of other tokens that are the same up to and including that one, it does the
same. A token past the end of the list counts as the one that stands past the end of every
list.

Steps in sequence look no further than each of them does. Loops are bounded by the tokens left,
which reach beyond what a step may look at. A loop under a bound is therefore compared with the
loop under any other that is long enough, and what is left are rounds, each decided by the
current token. The argument for these, and for parentheses within parentheses, is by induction
on the number of tokens left.
-/

namespace LineBasic.Program.Reading

variable {α β : Type}

/-! ## Tokens ahead of a cursor -/

/-- The current tokens are the same, and those after passing any number up to the count. -/
def SameAhead (count : Nat) (cursor other : Cursor) : Prop :=
  ∀ passed ≤ count, (cursor.skip passed).current = (other.skip passed).current

namespace SameAhead

variable {count further : Nat} {cursor other : Cursor}

/-- The current tokens are the same. -/
theorem current (ahead : SameAhead count cursor other) : cursor.current = other.current :=
  ahead 0 (Nat.zero_le _)

/-- What is the same far ahead is the same less far ahead. -/
theorem near (ahead : SameAhead (count + further) cursor other) : SameAhead count cursor other :=
  fun passed within => ahead passed (Nat.le_trans within (Nat.le_add_right _ _))

/-- What is the same far ahead is the same after passing some of it. -/
theorem behind (ahead : SameAhead (count + further) cursor other) :
    SameAhead further (cursor.skip count) (other.skip count) := by
  intro passed within
  rw [Cursor.skip_skip, Cursor.skip_skip]
  exact ahead (count + passed) (Nat.add_le_add_left within count)

/-- In front of two lists that begin alike the same is ahead, up to the last token that they
share. -/
theorem start (front : List Token) (last : Token) (rest others : List Token)
    (within : count ≤ front.length) :
    SameAhead count (.start (front ++ last :: rest)) (.start (front ++ last :: others)) := by
  intro passed near
  have dropped (behind : List Token) : (front ++ last :: behind).drop passed =
      front.drop passed ++ last :: behind :=
    List.drop_append_of_le_length (Nat.le_trans near within)
  simp only [Cursor.current, Cursor.skip, Cursor.start, dropped]
  cases front.drop passed with
  | nil => rfl
  | cons token tokens => rfl

end SameAhead

/-- At the cursor the step looks no further than the token where it stops. -/
def LooksAt (reading : Reading α) (cursor : Cursor) : Prop :=
  ∃ count, (reading cursor).2 = cursor.skip count ∧
    ∀ other, SameAhead count cursor other → reading other = ((reading cursor).1, other.skip count)

namespace LooksAt

/-- A step that is another one wherever the current token is the same looks no further than
that one. -/
theorem congr {reading : Reading α} (same : Reading α) {cursor : Cursor}
    (equal : ∀ other : Cursor, cursor.current = other.current → reading other = same other)
    (looks : LooksAt same cursor) : LooksAt reading cursor := by
  obtain ⟨count, place, alike⟩ := looks
  refine ⟨count, ?_, ?_⟩
  · rw [equal cursor rfl, place]
  · intro other ahead
    rw [equal other ahead.current, equal cursor rfl, alike other ahead]

/-- To give a value looks at nothing. -/
theorem pure (value : α) (cursor : Cursor) : LooksAt (Pure.pure value) cursor :=
  ⟨0, rfl, fun _ _ => rfl⟩

/-- The kind of the current token is seen where the step stops. -/
theorem kind (cursor : Cursor) : LooksAt Reading.kind cursor := by
  refine ⟨0, rfl, ?_⟩
  intro other ahead
  rw [Reading.kind, Reading.kind, ahead.current]
  rfl

/-- So is the whole token. -/
theorem current (cursor : Cursor) : LooksAt Reading.current cursor := by
  refine ⟨0, rfl, ?_⟩
  intro other ahead
  rw [Reading.current, Reading.current, ahead.current]
  rfl

/-- To pass a token is not to look at it. -/
theorem advance (cursor : Cursor) : LooksAt Reading.advance cursor :=
  ⟨1, cursor.advance_eq_skip, fun other _ => by rw [advance_apply, other.advance_eq_skip]; rfl⟩

/-- The token that is passed is seen before the one where the step stops. -/
theorem take (cursor : Cursor) : LooksAt Reading.take cursor := by
  refine ⟨1, cursor.advance_eq_skip, ?_⟩
  intro other ahead
  rw [take_apply, take_apply, ahead.current, other.advance_eq_skip]

/-- A failure sees the token at which it arises. -/
theorem expected (expectation : Expectation) (cursor : Cursor) :
    LooksAt (Reading.expected expectation : Reading α) cursor := by
  refine ⟨0, rfl, ?_⟩
  intro other ahead
  rw [expected_apply, expected_apply, ahead.current]
  rfl

/-- A step and the next one look no further than the next one does, or than the first if it
fails. -/
theorem bind {first : Reading α} {next : α → Reading β} {cursor : Cursor}
    (start : LooksAt first cursor)
    (finish : ∀ value after, first cursor = (.ok value, after) → LooksAt (next value) after) :
    LooksAt (first >>= next) cursor := by
  obtain ⟨count, place, alike⟩ := start
  cases outcome : first cursor with
  | mk found between =>
    rw [outcome] at place alike
    obtain rfl : between = cursor.skip count := place
    cases found with
    | error error =>
      refine ⟨count, by rw [bind_error outcome], ?_⟩
      intro other ahead
      rw [bind_error outcome, bind_error (alike other ahead)]
    | ok value =>
      obtain ⟨further, placeOn, alikeOn⟩ := finish value _ outcome
      refine ⟨count + further, ?_, ?_⟩
      · rw [bind_ok outcome, placeOn, Cursor.skip_skip]
      · intro other ahead
        rw [bind_ok outcome, bind_ok (alike other ahead.near), alikeOn _ ahead.behind,
          Cursor.skip_skip]

/-- A step leaves no more tokens than there were. -/
theorem rest_length_le {reading : Reading α} {cursor after : Cursor}
    {result : Except GrammarError α} (looks : LooksAt reading cursor)
    (outcome : reading cursor = (result, after)) : after.rest.length ≤ cursor.rest.length := by
  obtain ⟨count, place, -⟩ := looks
  rw [outcome] at place
  obtain rfl : after = cursor.skip count := place
  rw [Cursor.skip, List.length_drop]
  exact Nat.sub_le _ _

end LooksAt

/-- Wherever at most a number of tokens is left, the step looks no further than the token where
it stops. -/
def Local (size : Nat) (reading : Reading α) : Prop :=
  ∀ cursor : Cursor, cursor.rest.length ≤ size → LooksAt reading cursor

namespace Local

variable {size : Nat}

/-- To give a value is local. -/
theorem pure (value : α) : Local size (Pure.pure value) := fun cursor _ => .pure value cursor

/-- To look at the current kind is local. -/
theorem kind : Local size Reading.kind := fun cursor _ => .kind cursor

/-- To look at the current token is local. -/
theorem current : Local size Reading.current := fun cursor _ => .current cursor

/-- To pass a token is local. -/
theorem advance : Local size Reading.advance := fun cursor _ => .advance cursor

/-- To take the value of a token is local. -/
theorem take : Local size Reading.take := fun cursor _ => .take cursor

/-- To fail at the current token is local. -/
theorem expected (expectation : Expectation) :
    Local size (Reading.expected expectation : Reading α) :=
  fun cursor _ => .expected expectation cursor

/-- Steps in sequence look no further than each does. -/
theorem bind {first : Reading α} {next : α → Reading β} (start : Local size first)
    (finish : ∀ value, Local size (next value)) : Local size (first >>= next) := by
  intro cursor short
  apply (start cursor short).bind
  intro value after outcome
  exact finish value after (Nat.le_trans ((start cursor short).rest_length_le outcome) short)

/-- Past the current token fewer tokens are left. -/
theorem past {reading : Reading α} (looks : Local size reading) {cursor : Cursor}
    (short : cursor.rest.length ≤ size + 1) : LooksAt reading cursor.advance := by
  apply looks
  rw [advance_rest_length]
  omega

/-- What is local near the end is so still nearer to it. -/
theorem less {reading : Reading α} (looks : Local (size + 1) reading) : Local size reading :=
  fun cursor short => looks cursor (Nat.le_succ_of_le short)

/-- A step that is local whatever is left only moves on. -/
theorem forwards {reading : Reading α} (looks : ∀ size, Local size reading) : Forwards reading := by
  intro cursor
  obtain ⟨count, place, -⟩ := looks _ cursor (Nat.le_refl _)
  exact ⟨count, place⟩

end Local

/-- Where no token is left the file ends. -/
theorem kind_of_rest_short {cursor : Cursor} (short : cursor.rest.length ≤ 0) :
    cursor.current.kind = .endOfFile :=
  kind_of_rest_nil (List.eq_nil_of_length_eq_zero (Nat.le_zero.mp short))

/-! ## Expressions -/

/-- A chain is continued locally if its operands are read so. -/
theorem chainOn_local {operator? : Token.Kind → Option ArithOp} {operand : Reading Expr}
    {size : Nat} (stops : operator? .endOfFile = none) (forwards : Forwards operand)
    (looks : Local size operand) (left : Expr) : Local size (chainOn operator? operand left) := by
  induction size generalizing left with
  | zero =>
    intro cursor short
    have finished := kind_of_rest_short short
    apply LooksAt.congr (Pure.pure left) _ (.pure left cursor)
    intro other same
    exact chainOn_stop left (by rw [← same, finished, stops])
  | succ size inductionHypothesis =>
    intro cursor short
    cases follows : operator? cursor.current.kind with
    | none =>
      apply LooksAt.congr (Pure.pure left) _ (.pure left cursor)
      intro other same
      exact chainOn_stop left (by rw [← same, follows])
    | some op =>
      apply LooksAt.congr (do
        advance
        let right ← operand
        chainOn operator? operand (.binary op left right))
      · intro other same
        exact chainOn_operator stops forwards left (by rw [← same, follows])
      · apply (LooksAt.advance cursor).bind
        rintro _ _ ⟨⟩
        exact (looks.less.bind fun right => inductionHypothesis looks.less _).past short

/-- A chain is read locally if its operands are. -/
theorem chain_local {operator? : Token.Kind → Option ArithOp} {operand : Reading Expr}
    {size : Nat} (stops : operator? .endOfFile = none) (forwards : Forwards operand)
    (looks : Local size operand) : Local size (chain operator? operand) := by
  rw [chain_eq]
  exact looks.bind fun first => chainOn_local stops forwards looks first

/-- A factor is read locally, since what stands in parentheses has fewer tokens left. -/
theorem factor_local (size : Nat) : Local size factor := by
  induction size with
  | zero =>
    intro cursor short
    have finished := kind_of_rest_short short
    apply LooksAt.congr (Reading.expected .factor) _ (.expected .factor cursor)
    intro other same
    rw [factor_eq, factorOf, kind_bind, ← same, finished]
  | succ size inductionHypothesis =>
    have inner : Local size expr :=
      chain_local rfl Forwards.term (chain_local rfl Forwards.factor inductionHypothesis)
    intro cursor short
    apply LooksAt.congr (factorOf expr) fun other _ => factor_eq other
    apply (LooksAt.kind cursor).bind
    rintro _ _ ⟨⟩
    split
    · exact (Local.take.bind fun _ => .pure _) cursor short
    · exact (Local.take.bind fun _ => .pure _) cursor short
    · apply (LooksAt.advance cursor).bind
      rintro _ _ ⟨⟩
      refine Local.past (inner.bind fun value => Local.kind.bind fun kind => ?_) short
      split
      · exact Local.advance.bind fun _ => .pure _
      · exact .expected _
    · exact .expected _ cursor

variable {size : Nat}

/-- A term is read locally. -/
theorem term_local : Local size term := chain_local rfl Forwards.factor (factor_local size)

/-- An expression is read locally. -/
theorem expr_local : Local size expr := chain_local rfl Forwards.term term_local

/-! ## Statements -/

section Items

variable {separator : Token.Kind} {item : Reading α}

/-- Further items are read alike under any two bounds that are no shorter than the rest. -/
theorem itemsFrom_bound (other : separator ≠ .endOfFile) (forwards : Forwards item)
    (bound further : List Token) (cursor : Cursor) (enough : cursor.rest.length ≤ bound.length)
    (also : cursor.rest.length ≤ further.length) :
    itemsFrom separator item bound cursor = itemsFrom separator item further cursor := by
  induction bound generalizing further cursor with
  | nil =>
    have stop : cursor.current.kind ≠ separator := kind_of_rest_short enough ▸ other.symm
    rw [itemsFrom_stop _ stop, itemsFrom_stop _ stop]
  | cons token bound inductionHypothesis =>
    by_cases separates : cursor.current.kind = separator
    · cases further with
      | nil => exact absurd (separates.symm.trans (kind_of_rest_short also)) other
      | cons first further =>
        rw [itemsFrom_cons _ _ separates, itemsFrom_cons _ _ separates]
        apply bind_congr
        intro value after outcome
        have shrunk := forwards.rest_length_le outcome
        rw [advance_rest_length] at shrunk
        simp only [List.length_cons] at enough also
        rw [bind_apply, bind_apply, inductionHypothesis further after (by omega) (by omega)]
    · rw [itemsFrom_stop _ separates, itemsFrom_stop _ separates]

/-- Further items, bounded by the tokens left. -/
def itemsOn (separator : Token.Kind) (item : Reading α) : Reading (List α) := do
  itemsFrom separator item (← remaining)

/-- At a separator a further item is read, and then the rest of them. -/
theorem itemsOn_separator (other : separator ≠ .endOfFile) (forwards : Forwards item)
    {cursor : Cursor} (separates : cursor.current.kind = separator) :
    itemsOn separator item cursor =
      (do
        let first ← item
        let rest ← itemsOn separator item
        pure (first :: rest)) cursor.advance := by
  rw [itemsOn, remaining_bind, Cursor.rest_eq (separates ▸ other), itemsFrom_cons _ _ separates]
  apply bind_congr
  intro value after outcome
  have enough := forwards.rest_length_le outcome
  rw [bind_apply, bind_apply, remaining_bind,
    itemsFrom_bound other forwards _ _ after enough (Nat.le_refl _)]

/-- Further items are read locally if each is. -/
theorem itemsOn_local (other : separator ≠ .endOfFile) (forwards : Forwards item)
    (looks : Local size item) : Local size (itemsOn separator item) := by
  have stopped {cursor : Cursor} (stop : cursor.current.kind ≠ separator) :
      LooksAt (itemsOn separator item) cursor := by
    apply LooksAt.congr (Pure.pure []) _ (.pure [] cursor)
    intro another same
    exact itemsFrom_stop _ (same ▸ stop)
  induction size with
  | zero =>
    intro cursor short
    have finished := kind_of_rest_short short
    exact stopped (finished ▸ other.symm)
  | succ size inductionHypothesis =>
    intro cursor short
    by_cases separates : cursor.current.kind = separator
    · apply LooksAt.congr (do
        advance
        let first ← item
        let rest ← itemsOn separator item
        Pure.pure (first :: rest))
      · intro another same
        exact itemsOn_separator other forwards (same ▸ separates)
      · apply (LooksAt.advance cursor).bind
        rintro _ _ ⟨⟩
        have round := looks.less.bind fun first =>
          (inductionHypothesis looks.less).bind fun rest => Local.pure (first :: rest)
        exact round.past short
    · exact stopped separates

/-- Items with separators between them are read locally if each is. -/
theorem items_local (other : separator ≠ .endOfFile) (looks : ∀ size, Local size item) :
    Local size (items separator item) :=
  (looks size).bind fun first =>
    (itemsOn_local other (Local.forwards looks) (looks size)).bind fun rest =>
      .pure (first :: rest)

end Items

/-- A required token is read locally, whether it is there or not. -/
theorem required_local (wanted : Token.Kind) (expectation : Expectation) :
    Local size (required wanted expectation) := by
  apply Local.kind.bind
  intro kind
  split
  · exact .take
  · exact .expected _

/-- An assignment is read locally. -/
theorem assignment_local : Local size assignment :=
  Local.advance.bind fun _ => Local.current.bind fun _ =>
    (required_local _ _).bind fun _ => (required_local _ _).bind fun _ =>
      expr_local.bind fun _ => .pure _

/-- An item to print is read locally. -/
theorem printItem_local : Local size printItem := by
  apply Local.kind.bind
  intro kind
  split
  · exact Local.take.bind fun _ => .pure _
  · exact expr_local.bind fun _ => .pure _
  · exact expr_local.bind fun _ => .pure _
  · exact expr_local.bind fun _ => .pure _
  · exact .expected _

/-- A print statement is read locally. -/
theorem print_local : Local size print :=
  Local.advance.bind fun _ =>
    (items_local (by decide) fun _ => printItem_local).bind fun _ => .pure _

/-- A comparison is read locally. -/
theorem comparison_local : Local size comparison := by
  apply Local.kind.bind
  intro kind
  split
  · exact Local.advance.bind fun _ => .pure _
  · exact .expected _

/-- A condition is read locally. -/
theorem condition_local : Local size condition :=
  expr_local.bind fun _ => comparison_local.bind fun _ => expr_local.bind fun _ => .pure _

/-- A branch is read locally. -/
theorem branch_local : Local size branch :=
  Local.advance.bind fun _ => condition_local.bind fun _ => (required_local _ _).bind fun _ =>
    (required_local _ _).bind fun _ => .pure _

/-- A word followed by a required token is read locally. -/
theorem operand_local {wanted : Token.Kind} {expectation : Expectation} {build : Value → Stmt} :
    Local size (do advance; let value ← required wanted expectation; pure (build value)) :=
  Local.advance.bind fun _ => (required_local wanted expectation).bind fun _ => .pure _

/-- A statement of one word is read locally. -/
theorem oneWord_local (stmt : Stmt) : Local size (oneWord stmt) :=
  Local.advance.bind fun _ => .pure _

/-- A statement is read locally, whichever it is. -/
theorem statement_local : Local size statement := by
  apply Local.kind.bind
  intro kind
  split
  · exact assignment_local
  · exact print_local
  · exact operand_local
  · exact branch_local
  · exact operand_local
  · exact operand_local
  · exact oneWord_local _
  · exact oneWord_local _
  · exact oneWord_local _
  · exact .expected _

/-! ## Lines -/

/-- The end of a line is read locally. -/
theorem lineEnd_local (opened : Value) : Local size (lineEnd opened) := by
  apply Local.kind.bind
  intro kind
  split
  · exact .advance
  · exact .pure _
  · exact .expected _

/-- A line is read locally, since each of its parts is. -/
theorem line_local : Local size line :=
  Local.current.bind fun _ => (required_local _ _).bind fun _ =>
    (items_local (by decide) fun _ => statement_local).bind fun _ =>
      (lineEnd_local _).bind fun _ => .pure _

/-- Passes comments, bounded by the tokens left. -/
def skipOn : Reading Unit := do skipRemarks (← remaining)

/-- A comment is passed, and then those behind it. -/
theorem skipOn_remark {cursor : Cursor} (isRemark : Grammar.IsRemark cursor.current.kind) :
    skipOn cursor = skipOn cursor.advance := by
  have inside : cursor.current.kind ≠ .endOfFile := by
    intro finished
    rw [finished] at isRemark
    simp [Grammar.IsRemark] at isRemark
  rw [skipOn, remaining_bind, Cursor.rest_eq inside, Grammar.skipRemarks_remark _ _ isRemark,
    remaining_bind]

/-- Comments in front of a line are passed locally. -/
theorem skipOn_local : Local size skipOn := by
  have stopped {cursor : Cursor} (stop : ¬ Grammar.IsRemark cursor.current.kind) :
      LooksAt skipOn cursor := by
    apply LooksAt.congr (Pure.pure ()) _ (.pure () cursor)
    intro other same
    exact Grammar.skipRemarks_stop _ (same ▸ stop)
  induction size with
  | zero =>
    intro cursor short
    have finished := kind_of_rest_short short
    apply stopped
    rw [finished]
    simp [Grammar.IsRemark]
  | succ size inductionHypothesis =>
    intro cursor short
    by_cases isRemark : Grammar.IsRemark cursor.current.kind
    · apply LooksAt.congr (do
        advance
        skipOn)
      · intro other same
        exact skipOn_remark (same ▸ isRemark)
      · apply (LooksAt.advance cursor).bind
        rintro _ _ ⟨⟩
        exact inductionHypothesis.past short
    · exact stopped isRemark

/-- Lines are read alike under any two bounds that are no shorter than the rest. -/
theorem linesFrom_bound (bound further : List Token) (cursor : Cursor)
    (enough : cursor.rest.length ≤ bound.length) (also : cursor.rest.length ≤ further.length) :
    linesFrom bound cursor = linesFrom further cursor := by
  induction bound generalizing further cursor with
  | nil =>
    have finished := kind_of_rest_short enough
    rw [linesFrom_end _ finished, linesFrom_end _ finished]
  | cons token bound inductionHypothesis =>
    by_cases finished : cursor.current.kind = .endOfFile
    · rw [linesFrom_end _ finished, linesFrom_end _ finished]
    · cases further with
      | nil => exact absurd (kind_of_rest_short also) finished
      | cons first further =>
        obtain ⟨comments, between, skipped, passed, -⟩ :=
          Grammar.skipRemarks_exact cursor.rest cursor (Nat.le_refl _)
        rw [linesFrom_cons _ _ finished skipped, linesFrom_cons _ _ finished skipped]
        split
        · rfl
        · apply bind_congr
          intro value after outcome
          have shrunk := Nat.lt_of_lt_of_le (Grammar.line_shorter outcome) passed.rest_length_le
          simp only [List.length_cons] at enough also
          rw [bind_apply, bind_apply, inductionHypothesis further after (by omega) (by omega)]

/-- Within the file a program is comments, and then the end of the file or a line and a further
program. -/
theorem program_eq {cursor : Cursor} (inside : cursor.current.kind ≠ .endOfFile) :
    Reading.program cursor =
      (do
        skipOn
        if ← atEnd then
          pure []
        else
          let first ← line
          let rest ← Reading.program
          pure (first :: rest)) cursor := by
  obtain ⟨comments, between, skipped, passed, -⟩ :=
    Grammar.skipRemarks_exact cursor.rest cursor (Nat.le_refl _)
  have skippedOn : skipOn cursor = (.ok (), between) := skipped
  rw [Reading.program, remaining_bind, Cursor.rest_eq inside, linesFrom_cons _ _ inside skipped,
    bind_ok skippedOn, bind_ok (atEnd_apply between)]
  by_cases finished : between.current.kind = .endOfFile
  · rw [if_pos finished, if_pos (by simp [finished])]
    rfl
  · rw [if_neg finished, if_neg (by simp [finished])]
    apply bind_congr
    intro value after outcome
    have shrunk := Nat.lt_of_lt_of_le (Grammar.line_shorter outcome) passed.rest_length_le
    rw [Cursor.rest_eq inside, List.length_cons] at shrunk
    rw [bind_apply, bind_apply, remaining_bind,
      linesFrom_bound _ _ after (Nat.le_of_lt_succ shrunk) (Nat.le_refl _)]

/-- The test for the end of the file is local. -/
theorem atEnd_local : Local size atEnd := by
  apply Local.kind.bind
  intro kind
  split
  · exact .pure _
  · exact .pure _

/-- A program is read locally. Each line leaves fewer tokens for the lines behind it. -/
theorem program_local : Local size Reading.program := by
  have stopped {cursor : Cursor} (stop : cursor.current.kind = .endOfFile) :
      LooksAt Reading.program cursor := by
    apply LooksAt.congr (Pure.pure []) _ (.pure [] cursor)
    intro other same
    exact linesFrom_end _ (same ▸ stop)
  induction size with
  | zero =>
    intro cursor short
    exact stopped (kind_of_rest_short short)
  | succ size inductionHypothesis =>
    intro cursor short
    by_cases finished : cursor.current.kind = .endOfFile
    · exact stopped finished
    · apply LooksAt.congr _ fun other same => program_eq (same ▸ finished)
      have skips := skipOn_local cursor short
      apply skips.bind
      intro _ between skipped
      have within := Nat.le_trans (skips.rest_length_le skipped) short
      apply (atEnd_local between within).bind
      intro _ _ tested
      rw [atEnd_apply] at tested
      cases tested
      split
      · exact .pure _ _
      · apply (line_local between within).bind
        intro first after read
        have fewer := Nat.lt_of_lt_of_le (Grammar.line_shorter read) within
        apply (inductionHypothesis after (Nat.le_of_lt_succ fewer)).bind
        intro rest _ _
        exact .pure _ _

end LineBasic.Program.Reading
