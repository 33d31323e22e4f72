import LineBasic.Program.Reader

/-!
# What a reading step does to the cursor

A step is executed by its equation at a cursor. Two facts about cursors carry the
proofs about reading. Tokens stand between two places of a cursor when passing them
leads from the one to the other. And a step forwards the cursor when it only ever
moves it on, whether it succeeds or fails; past the end of the list the cursor goes on
counting, so moving on is stated by a number of tokens and not by the tokens.
-/

namespace LineBasic.Program

namespace Cursor

/-- The cursor after a number of further tokens, be they in the list or not. -/
def skip (cursor : Cursor) (count : Nat) : Cursor :=
  ⟨cursor.rest.drop count, cursor.position + count⟩

/-- Skipping twice is skipping the sum. -/
theorem skip_skip (cursor : Cursor) (first second : Nat) :
    (cursor.skip first).skip second = cursor.skip (first + second) := by
  simp only [skip, List.drop_drop, Nat.add_assoc]

/-- Passing a token is skipping one. -/
theorem advance_eq_skip (cursor : Cursor) : cursor.advance = cursor.skip 1 := by
  simp only [advance, skip, List.drop_one]

/-- To pass a token adds one to the position. -/
@[simp]
theorem advance_position (cursor : Cursor) : cursor.advance.position = cursor.position + 1 := rfl

/-- Unless the file ends here, the current token is the first of the rest. -/
theorem rest_eq {cursor : Cursor} (inside : cursor.current.kind ≠ .endOfFile) :
    cursor.rest = cursor.current :: cursor.advance.rest := by
  obtain ⟨rest, position⟩ := cursor
  cases rest with
  | nil => exact absurd rfl inside
  | cons token rest => rfl

/-- These tokens stand between one place of a cursor and another. -/
structure Passes (before : Cursor) (tokens : List Token) (after : Cursor) : Prop where
  rest : before.rest = tokens ++ after.rest
  position : after.position = before.position + tokens.length

namespace Passes

/-- No token stands between a place and itself. -/
theorem refl (cursor : Cursor) : cursor.Passes [] cursor := ⟨rfl, rfl⟩

/-- The tokens of two stretches follow one another. -/
theorem trans {before between after : Cursor} {first second : List Token}
    (start : before.Passes first between) (finish : between.Passes second after) :
    before.Passes (first ++ second) after := by
  constructor
  · rw [start.rest, finish.rest, List.append_assoc]
  · rw [finish.position, start.position, List.length_append, Nat.add_assoc]

/-- The current token stands in front of the others of a stretch. -/
theorem cons {before after : Cursor} {tokens : List Token}
    (inside : before.current.kind ≠ .endOfFile) (finish : before.advance.Passes tokens after) :
    before.Passes (before.current :: tokens) after := by
  constructor
  · rw [rest_eq inside, finish.rest, List.cons_append]
  · rw [finish.position, List.length_cons, advance_position]
    omega

/-- The current token alone. -/
theorem one {cursor : Cursor} (inside : cursor.current.kind ≠ .endOfFile) :
    cursor.Passes [cursor.current] cursor.advance :=
  cons inside (refl cursor.advance)

/-- Where no token stands between two places they are the same. -/
theorem eq_of_nil {before after : Cursor} (passes : before.Passes [] after) : before = after := by
  obtain ⟨rest, position⟩ := passes
  cases before
  cases after
  simp_all

/-- What is left behind a stretch was left in front of it. -/
theorem rest_length_le {before after : Cursor} {tokens : List Token}
    (passes : before.Passes tokens after) : after.rest.length ≤ before.rest.length := by
  rw [passes.rest, List.length_append]
  exact Nat.le_add_left _ _

/-- The first token of a stretch is the current one, and the others follow it. -/
theorem uncons {before after : Cursor} {token : Token} {tokens : List Token}
    (passes : before.Passes (token :: tokens) after) :
    before.current = token ∧ before.advance.Passes tokens after := by
  obtain ⟨rest, position⟩ := passes
  constructor
  · rw [current, rest, List.cons_append, List.headD_cons]
  · constructor
    · rw [advance, rest, List.cons_append, List.tail_cons]
    · rw [position, List.length_cons, advance_position]
      omega

/-- A stretch can be cut in two. -/
theorem split {before after : Cursor} {first second : List Token}
    (passes : before.Passes (first ++ second) after) :
    ∃ between : Cursor, before.Passes first between ∧ between.Passes second after := by
  refine ⟨⟨second ++ after.rest, before.position + first.length⟩, ⟨?_, rfl⟩, ⟨rfl, ?_⟩⟩
  · rw [passes.rest, List.append_assoc]
  · rw [passes.position, List.length_append, Nat.add_assoc]

end Passes

end Cursor

namespace Reading

variable {α β : Type}

/-! ## Equations of steps -/

/-- What a step and the next one do together. -/
theorem bind_apply (first : Reading α) (next : α → Reading β) (cursor : Cursor) :
    (first >>= next) cursor =
      match first cursor with
      | (.ok value, after) => next value after
      | (.error error, after) => (.error error, after) := rfl

/-- The kind at the cursor, which stays. -/
theorem kind_apply (cursor : Cursor) : kind cursor = (.ok cursor.current.kind, cursor) := rfl

/-- The kind at the cursor is handed on. -/
@[simp]
theorem kind_bind (next : Token.Kind → Reading β) (cursor : Cursor) :
    (kind >>= next) cursor = next cursor.current.kind cursor := rfl

/-- The token at the cursor is handed on. -/
@[simp]
theorem current_bind (next : Token → Reading β) (cursor : Cursor) :
    (current >>= next) cursor = next cursor.current cursor := rfl

/-- The value of the token that is passed. -/
@[simp]
theorem take_apply (cursor : Cursor) : take cursor = (.ok cursor.current.value, cursor.advance) :=
  rfl

/-- The tokens left are handed on. -/
@[simp]
theorem remaining_bind (next : List Token → Reading β) (cursor : Cursor) :
    (remaining >>= next) cursor = next cursor.rest cursor := rfl

/-- A token is passed without a value. -/
@[simp]
theorem advance_apply (cursor : Cursor) : advance cursor = (.ok (), cursor.advance) := rfl

/-- What follows a passed token begins behind it. -/
@[simp]
theorem advance_bind (next : Unit → Reading β) (cursor : Cursor) :
    (advance >>= next) cursor = next () cursor.advance := rfl

/-- A failure is about the token at the cursor, which stays. -/
@[simp]
theorem expected_apply (expectation : Expectation) (cursor : Cursor) :
    (expected expectation : Reading α) cursor = (.error ⟨expectation, cursor.current⟩, cursor) :=
  rfl

/-- Two steps succeed together exactly when the first does and the next does after it. -/
theorem bind_eq_ok_iff {first : Reading α} {next : α → Reading β} {before after : Cursor}
    {result : β} :
    (first >>= next) before = (.ok result, after) ↔
      ∃ value between, first before = (.ok value, between) ∧
        next value between = (.ok result, after) := by
  constructor
  · intro succeeded
    cases outcome : first before with
    | mk found between =>
      cases found with
      | ok value => exact ⟨value, between, rfl, (bind_ok outcome).symm.trans succeeded⟩
      | error error => rw [bind_error outcome] at succeeded; cases succeeded
  · rintro ⟨value, between, found, succeeded⟩
    rw [bind_ok found, succeeded]

/-- Two steps fail together exactly when the first does, or the next does after it. -/
theorem bind_eq_error_iff {first : Reading α} {next : α → Reading β} {before after : Cursor}
    {error : GrammarError} :
    (first >>= next) before = (.error error, after) ↔
      first before = (.error error, after) ∨
        ∃ value between, first before = (.ok value, between) ∧
          next value between = (.error error, after) := by
  constructor
  · intro failed
    cases outcome : first before with
    | mk found between =>
      cases found with
      | ok value => exact .inr ⟨value, between, rfl, (bind_ok outcome).symm.trans failed⟩
      | error other =>
        rw [bind_error outcome] at failed
        cases failed
        exact .inl rfl
  · rintro (firstFailed | ⟨value, between, found, nextFailed⟩)
    · rw [bind_error firstFailed]
    · rw [bind_ok found, nextFailed]

/-- What follows a step needs to be the same only where the step succeeds. -/
theorem bind_congr {first : Reading α} {next other : α → Reading β} {cursor : Cursor}
    (same : ∀ value after, first cursor = (.ok value, after) →
      next value after = other value after) :
    (first >>= next) cursor = (first >>= other) cursor := by
  cases outcome : first cursor with
  | mk found after =>
    cases found with
    | error error => rw [bind_error outcome, bind_error outcome]
    | ok value => rw [bind_ok outcome, bind_ok outcome, same value after outcome]

/-- A required token is there exactly when the current one is of its kind. -/
theorem required_eq_ok_iff {wanted : Token.Kind} {expectation : Expectation}
    {before after : Cursor} {value : Value} :
    required wanted expectation before = (.ok value, after) ↔
      before.current.kind = wanted ∧ value = before.current.value ∧ after = before.advance := by
  simp only [required, kind_bind]
  split
  · next found => simp [found, eq_comm]
  · next missing => simp [missing]

/-! ## Moving on -/

/-- Whatever comes of the step, the cursor only moves on. -/
def Forwards (reading : Reading α) : Prop :=
  ∀ cursor, ∃ count, (reading cursor).2 = cursor.skip count

namespace Forwards

/-- The rest of the tokens never grows. -/
theorem rest_length_le {reading : Reading α} (forwards : Forwards reading) {before after : Cursor}
    {result : Except GrammarError α} (outcome : reading before = (result, after)) :
    after.rest.length ≤ before.rest.length := by
  obtain ⟨count, moved⟩ := forwards before
  rw [outcome] at moved
  have place : after = before.skip count := moved
  rw [place, Cursor.skip, List.length_drop]
  exact Nat.sub_le _ _

/-- To give a value does not move the cursor back. -/
theorem pure (value : α) : Forwards (Pure.pure value) := fun _ => ⟨0, rfl⟩

/-- Nor does a look at the current kind. -/
theorem kind : Forwards Reading.kind := fun _ => ⟨0, rfl⟩

/-- Nor does a look at the tokens left. -/
theorem remaining : Forwards Reading.remaining := fun _ => ⟨0, rfl⟩

/-- Nor does a failure. -/
theorem expected (expectation : Expectation) :
    Forwards (Reading.expected expectation : Reading α) := fun _ => ⟨0, rfl⟩

/-- To pass a token moves the cursor on by one. -/
theorem advance : Forwards Reading.advance := fun cursor => ⟨1, cursor.advance_eq_skip⟩

/-- So does taking its value. -/
theorem take : Forwards Reading.take := fun cursor => ⟨1, cursor.advance_eq_skip⟩

/-- One step after another moves on if both do. -/
theorem bind {first : Reading α} {next : α → Reading β} (start : Forwards first)
    (finish : ∀ value, Forwards (next value)) : Forwards (first >>= next) := by
  intro cursor
  obtain ⟨count, moved⟩ := start cursor
  cases outcome : first cursor with
  | mk found between =>
    rw [outcome] at moved
    have place : between = cursor.skip count := moved
    cases found with
    | error error => exact ⟨count, by rw [bind_error outcome, place]⟩
    | ok value =>
      obtain ⟨further, movedOn⟩ := finish value between
      refine ⟨count + further, ?_⟩
      rw [bind_ok outcome, movedOn, place, Cursor.skip_skip]

end Forwards

end Reading

end LineBasic.Program
