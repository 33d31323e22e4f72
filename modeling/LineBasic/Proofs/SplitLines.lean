import LineBasic.Proofs.GrammarCompleteness
import LineBasic.Proofs.Layout
import Mathlib.Algebra.GroupWithZero.Nat

/-!
# Lines in pieces

A line with several statements can be split into pieces, each a line of its own with one
of the statements. The first piece keeps the number of the line. The others have fresh
numbers, to which no statement jumps, so they are reached only from the piece before, as
the statements of a line are.

Both programs run alike, but not step by step: where the one executes a line, the other
executes as many pieces as the line executes statements. A run of the pieces therefore needs
a greater limit, and never a smaller one, to get as far. Calls have to stand at the end of
their lines, since a return leads to the next line and not to the next statement.
-/

namespace LineBasic

open Machine

/-! ## Splitting -/

namespace Program

/-- The program names no line by this number. -/
def Fresh (program : Program) (number : Value) : Prop :=
  ∀ label ∈ program.labels, number.same label = false

end Program

/-- A line in pieces: one for each statement, the first with the number of the line and the
others with numbers of which something holds. -/
structure Line.Pieces (Other : Value → Prop) (line : Line) (pieces : List Line) : Prop where
  statements : pieces.map Line.statements = line.statements.map fun stmt => [stmt]
  first : ∀ piece ∈ pieces.head?, piece.number = line.number
  others : ∀ piece ∈ pieces.tail, Other piece.number

namespace Program

/-- The pieces of each line, one after another. -/
inductive InPieces (Other : Value → Prop) : Program → Program → Prop where
  | nil : InPieces Other [] []
  | cons {line : Line} {pieces : List Line} {lines others : Program}
      (split : line.Pieces Other pieces) (further : InPieces Other lines others) :
      InPieces Other (line :: lines) (pieces ++ others)

/-- Another program consists of the pieces of the lines of this one, with fresh numbers. -/
def Splits (program split : Program) : Prop := InPieces program.Fresh program split

/-- How many pieces stand in front of those of the line at an index. -/
def firstPiece (program : Program) (index : Nat) : Nat :=
  ((program.take index).map fun line => line.statements.length).sum

/-- Where an index leads when lines are split: to the first piece of its line, or behind the
last piece. The sign of the end stays what it is. -/
def piecePlace (program : Program) (index : Int) : Int :=
  if 0 ≤ index then program.firstPiece index.toNat else index

/-- The pieces of the first line come before all the others. -/
theorem firstPiece_cons (line : Line) (lines : Program) (index : Nat) :
    firstPiece (line :: lines) (index + 1) = line.statements.length + firstPiece lines index := by
  simp [firstPiece]

/-- The pieces of a line stand in front of those of the next. -/
theorem firstPiece_succ {program : Program} {index : Nat} {line : Line}
    (isLine : program[index]? = some line) :
    program.firstPiece (index + 1) = program.firstPiece index + line.statements.length := by
  simp [firstPiece, List.take_add_one, isLine]

/-- A line is placed at the first of its pieces. -/
theorem piecePlace_natCast (program : Program) (index : Nat) :
    program.piecePlace index = program.firstPiece index := by
  simp [piecePlace]

/-- Behind the pieces of a line stands the first piece of the next, or the end. -/
theorem piecePlace_next {program : Program} {index : Nat} {line : Line}
    (isLine : program[index]? = some line) :
    program.piecePlace (index + 1) =
      ((program.firstPiece index + line.statements.length : Nat) : Int) := by
  rw [← firstPiece_succ isLine, ← piecePlace_natCast]
  rfl

/-! ## Looking up pieces -/

/-- The last line with a number stands in the second part, or else in the first. -/
theorem indexOf?_append (number : Value) (first second : Program) :
    indexOf? number (first ++ second) =
      match indexOf? number second with
      | some index => some (first.length + index)
      | none => indexOf? number first := by
  induction first with
  | nil =>
    rw [List.nil_append]
    cases indexOf? number second <;> simp [indexOf?]
  | cons line rest inductionHypothesis =>
    rw [List.cons_append, indexOf?, inductionHypothesis]
    cases indexOf? number second with
    | some index => simp [Nat.add_right_comm]
    | none => rfl

/-- No index is found for a number that no line has. -/
theorem indexOf?_none_of {program : Program} {number : Value}
    (missing : ∀ line ∈ program, line.number.same number = false) :
    program.indexOf? number = none := by
  cases found : program.indexOf? number with
  | none => rfl
  | some index =>
    obtain ⟨line, stands, same⟩ := (indexOf?_lastAt found).numbered
    rw [missing line (List.mem_of_getElem? stands)] at same
    cases same

end Program

namespace Line.Pieces

variable {Other : Value → Prop} {line : Line} {pieces : List Line}

/-- There are as many pieces as statements. -/
theorem length_eq (split : line.Pieces Other pieces) : pieces.length = line.statements.length := by
  simpa using congrArg List.length split.statements

/-- Each piece holds its statement. -/
theorem piece (split : line.Pieces Other pieces) {position : Nat} {stmt : Stmt}
    (stands : line.statements[position]? = some stmt) :
    ∃ piece, pieces[position]? = some piece ∧ piece.statements = [stmt] := by
  have same := congrArg (fun all => all[position]?) split.statements
  simpa [stands] using same

/-- Of the pieces only the first can have a number that the others do not have. -/
theorem indexOf?_eq (split : line.Pieces Other pieces) (filled : line.statements ≠ [])
    {number : Value} (strange : ∀ other, Other other → other.same number = false) :
    Program.indexOf? number pieces = if line.number.same number then some 0 else none := by
  cases pieces with
  | nil => exact absurd (List.length_eq_zero_iff.mp split.length_eq.symm) filled
  | cons first rest =>
    have later : Program.indexOf? number rest = none :=
      Program.indexOf?_none_of fun piece member => strange _ (split.others piece member)
    rw [Program.indexOf?, later, split.first first rfl]

end Line.Pieces

namespace Program.InPieces

variable {Other : Value → Prop} {program split : Program}

/-- There are as many pieces as stand in front of the end. -/
theorem length_eq (inPieces : InPieces Other program split) :
    split.length = program.firstPiece program.length := by
  induction inPieces with
  | nil => rfl
  | cons split further inductionHypothesis =>
    rw [List.length_append, List.length_cons, firstPiece_cons, split.length_eq,
      inductionHypothesis]

/-- A statement of a line stands alone in the piece that is as far behind the first one. -/
theorem piece (inPieces : InPieces Other program split) {index position : Nat} {line : Line}
    {stmt : Stmt} (isLine : program[index]? = some line)
    (stands : line.statements[position]? = some stmt) :
    ∃ piece, split[program.firstPiece index + position]? = some piece ∧
      piece.statements = [stmt] := by
  induction inPieces generalizing index with
  | nil => simp at isLine
  | @cons first pieces lines others split further inductionHypothesis =>
    cases index with
    | zero =>
      obtain rfl : first = line := by simpa using isLine
      obtain ⟨piece, found, alone⟩ := split.piece stands
      have bound := (List.getElem?_eq_some_iff.mp found).1
      refine ⟨piece, ?_, alone⟩
      rw [firstPiece, List.take_zero, List.map_nil, List.sum_nil, Nat.zero_add,
        List.getElem?_append_left bound, found]
    | succ index =>
      obtain ⟨piece, found, alone⟩ := inductionHypothesis (by simpa using isLine)
      refine ⟨piece, ?_, alone⟩
      rw [firstPiece_cons, ← split.length_eq, Nat.add_assoc, List.getElem?_append_right (by omega),
        Nat.add_sub_cancel_left, found]

/-- A number that pieces behind a first one do not have leads to the first piece of the line to
which it led. -/
theorem indexOf?_eq (inPieces : InPieces Other program split)
    (filled : ∀ line ∈ program, line.statements ≠ []) {number : Value}
    (strange : ∀ other, Other other → other.same number = false) :
    split.indexOf? number = (program.indexOf? number).map program.firstPiece := by
  induction inPieces with
  | nil => rfl
  | @cons line pieces lines others split further inductionHypothesis =>
    have later := inductionHypothesis fun line member => filled line (.tail _ member)
    have here := split.indexOf?_eq (filled line List.mem_cons_self) strange
    rw [indexOf?_append, indexOf?, later, here]
    cases indexOf? number lines with
    | some index => simp [firstPiece_cons, split.length_eq]
    | none =>
      by_cases same : line.number.same number = true
      · simp [same, firstPiece]
      · simp [same]

end Program.InPieces

/-- Each line that is written has a statement. -/
theorem Program.Grammar.NumberedLine.filled {tokens : List Token} {line : Line}
    (written : NumberedLine tokens line) : line.statements ≠ [] := by
  cases written with
  | intro isNumber body => exact body.ne_nil

/-! ## Outcomes -/

namespace Machine

/-- How a run from an index ends, and the state that it leaves. -/
def outcome (program : Program) (limit : Nat) (index : Int) (state : State) : Ending × State :=
  ((runFrom program limit index state []).ending, (runFrom program limit index state []).state)

/-- How a run ends, and the state that it leaves, after a line has given and left something. -/
def settle (program : Program) (limit : Nat) : Except Fault Int × State → Ending × State
  | (.ok next, after) =>
    if next = -1 then (.completed, after) else outcome program limit next after
  | (.error fault, after) => (.faulted fault, after)

section Outcomes

variable {program : Program} {limit : Nat} {index : Int} {state : State}

/-- Past the last line a run has come to its end. -/
theorem outcome_past (past : ¬ index < program.length) :
    outcome program limit index state = (.completed, state) := by
  rw [outcome, runFrom_past past]

/-- Without a line to execute a run within the program is unfinished. -/
theorem outcome_zero (inside : index < program.length) :
    outcome program 0 index state = (.unfinished, state) := by
  simp [outcome, runFrom, inside]

/-- A line inside the program is executed if the limit allows it. -/
theorem outcome_succ (inside : index < program.length) :
    outcome program (limit + 1) index state =
      settle program limit (program.execLine index state) := by
  rcases ran : program.execLine index state with ⟨fault | next, after⟩
  · rw [outcome, runFrom_faulted inside ran, settle]
  · by_cases ended : next = -1
    · subst ended
      rw [outcome, runFrom_ended inside ran, settle, if_pos rfl]
    · rw [outcome, runFrom_next inside ran ended, runFrom_visits, settle, if_neg ended, outcome]

/-- A run goes on from an index that is not negative. -/
theorem settle_natCast (place : Nat) :
    settle program limit (.ok place, state) = outcome program limit place state := by
  rw [settle, if_neg (by omega)]

/-- A run that has come to an end has the same outcome under every greater limit. -/
theorem outcome_limit {more : Nat} (enough : limit ≤ more)
    (ends : (outcome program limit index state).1 ≠ .unfinished) :
    outcome program more index state = outcome program limit index state := by
  rw [outcome, outcome, runFrom_limit enough ends]

/-- A run that comes to an end within two limits has the same outcome under both. -/
theorem outcome_unique {other : Nat} (ends : (outcome program limit index state).1 ≠ .unfinished)
    (alsoEnds : (outcome program other index state).1 ≠ .unfinished) :
    outcome program limit index state = outcome program other index state := by
  rw [← outcome_limit (Nat.le_max_left limit other) ends,
    outcome_limit (Nat.le_max_right limit other) alsoEnds]

end Outcomes

/-! ## Pieces of a line -/

variable {program split : Program}

/-- What a line gives and leaves when its program is split. -/
def inPieces (program : Program) (given : Except Fault Int × State) : Except Fault Int × State :=
  (given.1.map program.piecePlace, given.2.relocate program.piecePlace)

section Splitting

variable (splits : program.Splits split) (filled : ∀ line ∈ program, line.statements ≠ [])
include splits filled

/-- A statement of a line does in its piece what it does in the line. -/
theorem exec_piece {index piece : Int} {line : Line} {stmt : Stmt} (isLine : line ∈ program)
    (among : stmt ∈ line.statements)
    (behind : stmt.isCall = true → piece + 1 = program.piecePlace (index + 1)) (state : State) :
    stmt.exec split piece (state.relocate program.piecePlace) =
      relaid program.piecePlace id (stmt.exec program index state) := by
  have destinations : ∀ jump target, stmt.jump? = some (jump, target) →
      split.destination jump (id target) =
        ((program.destination jump target).map (Option.map program.piecePlace)).mapError id := by
    intro jump target isJump
    have named : target ∈ program.labels :=
      List.mem_append_right _ (Program.mem_targets isLine among isJump)
    rw [Program.destination, Program.destination, id,
      splits.indexOf?_eq filled fun number fresh => fresh target named]
    cases program.indexOf? target with
    | some position =>
      change Except.ok (some ((program.firstPiece position : Nat) : Int)) =
        .ok (some (program.piecePlace position))
      rw [Program.piecePlace_natCast]
    | none => rfl
  have same := exec_relaid destinations behind rfl fun fault (_ : Raises state stmt fault) => rfl
  rwa [Stmt.relabel_id] at same

variable (callsLast : ∀ line ∈ program, ∀ stmt ∈ line.statements.dropLast, stmt.isCall = false)
include callsLast

/-- A run of the pieces executes the piece of a statement as the line executes the statement,
and goes on with the next piece where the line goes on. -/
theorem outcome_piece {index : Nat} {line : Line} (isLine : program[index]? = some line)
    {done rest : List Stmt} {stmt : Stmt} (whole : line.statements = done ++ stmt :: rest)
    (limit : Nat) (state : State) :
    let place := program.firstPiece index + done.length
    outcome split (limit + 1) place (state.relocate program.piecePlace) =
      settle split limit
        (match stmt.exec program index state with
        | (.ok none, after) =>
          (.ok ((place + 1 : Nat) : Int), after.relocate program.piecePlace)
        | (.ok (some next), after) =>
          (.ok (program.piecePlace next), after.relocate program.piecePlace)
        | (.error fault, after) => (.error fault, after.relocate program.piecePlace)) := by
  intro place
  have member := List.mem_of_getElem? isLine
  have among : stmt ∈ line.statements := by simp [whole]
  have here : line.statements[done.length]? = some stmt := by simp [whole]
  obtain ⟨piece, stands, alone⟩ := splits.piece isLine here
  have bound : place < split.length := (List.getElem?_eq_some_iff.mp stands).1
  have found : split.lineAt? place = some piece := by
    simpa [Program.lineAt?] using stands
  have behind : stmt.isCall = true → (place : Int) + 1 = program.piecePlace (index + 1) := by
    intro isCall
    cases rest with
    | nil =>
      rw [Program.piecePlace_next isLine, whole, List.length_append, List.length_singleton]
      rfl
    | cons other rest =>
      have earlier : stmt ∈ line.statements.dropLast := by simp [whole]
      rw [callsLast line member stmt earlier] at isCall
      cases isCall
  rw [outcome_succ (by omega), Program.execLine, found]
  simp only [alone, execAll, exec_piece splits filled member among behind state]
  rcases stmt.exec program index state with ⟨fault | (_ | next), after⟩ <;> rfl

/-- The rest of a line does in its pieces what it does in the line. The pieces take a step for
each statement that is reached, so at least one if there is any. -/
theorem settle_pieces {index : Nat} {line : Line} (isLine : program[index]? = some line)
    {done rest : List Stmt} (whole : line.statements = done ++ rest) (state : State) :
    ∃ steps, (rest ≠ [] → 0 < steps) ∧ ∀ limit,
      settle split (limit + steps)
          (.ok ((program.firstPiece index + done.length : Nat) : Int),
            state.relocate program.piecePlace) =
        settle split limit (inPieces program (execAll program index rest state)) := by
  induction rest generalizing done state with
  | nil =>
    refine ⟨0, fun some => absurd rfl some, fun limit => ?_⟩
    rw [List.append_nil] at whole
    rw [execAll, inPieces, Except.map, Program.piecePlace_next isLine, whole, Nat.add_zero]
  | cons stmt rest inductionHypothesis =>
    have step := outcome_piece splits filled callsLast isLine whole
    rcases executed : stmt.exec program index state with ⟨fault | (_ | next), after⟩
    · refine ⟨1, fun _ => Nat.one_pos, fun limit => ?_⟩
      rw [settle_natCast, step, execAll, executed]
      rfl
    · have further : line.statements = (done ++ [stmt]) ++ rest := by simp [whole]
      obtain ⟨steps, -, same⟩ := inductionHypothesis further after
      refine ⟨steps + 1, fun _ => Nat.succ_pos steps, fun limit => ?_⟩
      rw [settle_natCast, ← Nat.add_assoc, step, execAll, executed, ← same limit,
        List.length_append, List.length_singleton]
      rfl
    · refine ⟨1, fun _ => Nat.one_pos, fun limit => ?_⟩
      rw [settle_natCast, step, execAll, executed]
      rfl

/-- A line does in its pieces what it does as a whole, in at least one step. -/
theorem outcome_line {index : Int} (notNegative : 0 ≤ index) (inside : index < program.length)
    (state : State) :
    ∃ steps, 0 < steps ∧ ∀ limit,
      outcome split (limit + steps) (program.piecePlace index)
          (state.relocate program.piecePlace) =
        settle split limit (inPieces program (program.execLine index state)) := by
  obtain ⟨line, found, isLine⟩ := Program.lineAt?_within notNegative inside
  obtain ⟨place, rfl⟩ := Int.eq_ofNat_of_zero_le notNegative
  rw [Int.toNat_natCast] at isLine
  obtain ⟨steps, executes, same⟩ :=
    settle_pieces splits filled callsLast isLine (List.nil_append _).symm state
  refine ⟨steps, executes (filled line (List.mem_of_getElem? isLine)), fun limit => ?_⟩
  rw [Program.execLine, found, Program.piecePlace_natCast, ← settle_natCast]
  exact same limit

/-! ## Runs -/

omit callsLast in
/-- A line within the program has its first piece within the pieces. -/
theorem piecePlace_lt {index : Int} (notNegative : 0 ≤ index) (inside : index < program.length) :
    program.piecePlace index < split.length := by
  obtain ⟨line, -, isLine⟩ := Program.lineAt?_within notNegative inside
  obtain ⟨stmt, rest, whole⟩ :=
    List.exists_cons_of_ne_nil (filled line (List.mem_of_getElem? isLine))
  have first : line.statements[0]? = some stmt := by rw [whole, List.getElem?_cons_zero]
  obtain ⟨piece, stands, -⟩ := splits.piece isLine first
  have bound := (List.getElem?_eq_some_iff.mp stands).1
  rw [Program.piecePlace, if_pos notNegative]
  omega

omit filled callsLast in
/-- Behind the last line nothing more happens, and nothing behind the last piece. -/
theorem outcome_split_past {limit : Nat} {index : Int} {state : State}
    (within : index ≤ program.length) (past : ¬ index < program.length) :
    outcome split limit (program.piecePlace index) (state.relocate program.piecePlace) =
      ((outcome program limit index state).1,
        (outcome program limit index state).2.relocate program.piecePlace) := by
  obtain rfl : index = program.length := by omega
  rw [outcome_past past, outcome_past]
  rw [Program.piecePlace_natCast, splits.length_eq]
  omega

/-- Under a limit that is large enough, a run of the pieces has the outcome that the run of the
lines has under the given limit. -/
theorem outcome_split (limit : Nat) {index : Int} {state : State}
    (ready : Ready program index state) (within : index ≤ program.length) :
    ∃ more, limit ≤ more ∧
      outcome split more (program.piecePlace index) (state.relocate program.piecePlace) =
        ((outcome program limit index state).1,
          (outcome program limit index state).2.relocate program.piecePlace) := by
  induction limit generalizing index state with
  | zero =>
    refine ⟨0, Nat.le_refl 0, ?_⟩
    by_cases inside : index < program.length
    · rw [outcome_zero inside, outcome_zero (piecePlace_lt splits filled ready.notNegative inside)]
    · exact outcome_split_past splits within inside
  | succ limit inductionHypothesis =>
    by_cases inside : index < program.length
    · obtain ⟨steps, executes, same⟩ :=
        outcome_line splits filled callsLast ready.notNegative inside state
      rw [outcome_succ inside]
      rcases ran : program.execLine index state with ⟨fault | next, after⟩
      · refine ⟨limit + steps, by omega, ?_⟩
        rw [same, ran]
        rfl
      · by_cases ended : next = -1
        · refine ⟨limit + steps, by omega, ?_⟩
          rw [same, ran, ended]
          rfl
        · obtain ⟨nextReady, nextWithin⟩ := ready.next inside ran ended
          obtain ⟨more, enough, further⟩ := inductionHypothesis nextReady nextWithin
          obtain ⟨place, rfl⟩ := Int.eq_ofNat_of_zero_le nextReady.notNegative
          refine ⟨more + steps, by omega, ?_⟩
          rw [same, ran, inPieces, Except.map, Program.piecePlace_natCast, settle_natCast,
            ← Program.piecePlace_natCast, further, settle_natCast]
    · exact ⟨limit + 1, Nat.le_refl _, outcome_split_past splits within inside⟩

end Splitting

/-- A program as it is read, in which calls stand only at the end of lines, means the same when
its lines are split. For every input the run of the one ends if and only if the run of the other
does. They then end alike, with the same fault or with none, and leave the same state, but for
the returns: where one leads to a line, the other leads to its first piece, and the number of
lines becomes the number of pieces.

Where the one executes a line, the other executes a piece for each statement that the line executes,
and both come to places that correspond; this is an induction over the statements. By induction over
the limit every run of the program is then followed by a run of the pieces, with a limit that is no
smaller. The other direction needs no simulation of its own, since a run that ends is the same under
every greater limit. -/
theorem run_split {tokens : List Token} (accepted : Program.ofTokens tokens = .ok program)
    (callsLast : ∀ line ∈ program, ∀ stmt ∈ line.statements.dropLast, stmt.isCall = false)
    (splits : program.Splits split) (feed : Feed) :
    program.piecePlace program.length = split.length ∧
      ((∃ limit, (run program limit (.initial feed)).ending ≠ .unfinished) ↔
        ∃ limit, (run split limit (.initial feed)).ending ≠ .unfinished) ∧
      ∀ limit more,
        let whole := run program limit (.initial feed)
        let pieces := run split more (.initial feed)
        whole.ending ≠ .unfinished → pieces.ending ≠ .unfinished →
          pieces.ending = whole.ending ∧
            pieces.state = whole.state.relocate program.piecePlace := by
  have written := (Program.Grammar.ofTokens_eq_ok_iff tokens program).mp accepted
  have filled := written.forall Program.Grammar.NumberedLine.filled
  have follows (limit : Nat) : ∃ more, limit ≤ more ∧
      outcome split more 0 (.initial feed) =
        ((outcome program limit 0 (.initial feed)).1,
          (outcome program limit 0 (.initial feed)).2.relocate program.piecePlace) :=
    outcome_split splits filled callsLast limit (.initial program feed) (Int.natCast_nonneg _)
  refine ⟨?_, ⟨?_, ?_⟩, ?_⟩
  · rw [Program.piecePlace_natCast, splits.length_eq]
  · rintro ⟨limit, ends⟩
    obtain ⟨more, -, same⟩ := follows limit
    exact ⟨more, fun unfinished => ends ((congrArg Prod.fst same).symm.trans unfinished)⟩
  · -- Within the same limit the lines get at least as far as the pieces.
    rintro ⟨limit, ends⟩
    obtain ⟨more, enough, same⟩ := follows limit
    rw [outcome_limit enough ends] at same
    exact ⟨limit, fun unfinished => ends ((congrArg Prod.fst same).trans unfinished)⟩
  · intro limit more whole pieces wholeEnds piecesEnd
    obtain ⟨other, -, same⟩ := follows limit
    have otherEnds : (outcome split other 0 (.initial feed)).1 ≠ .unfinished := by
      rw [same]
      exact wholeEnds
    rw [outcome_unique otherEnds piecesEnd] at same
    exact ⟨congrArg Prod.fst same, congrArg Prod.snd same⟩

/-- A jump leaves the middle of a line, a call is repeated before it returns, and behind the end
stands a return that is never executed. -/
theorem run_split_calls :
    let token (kind : Token.Kind) (value : Value) : Token := ⟨kind, value, .number 1, .number 0⟩
    let word (word : Keyword) := token (.keyword word) .absent
    let name := token .identifier (.text "A")
    let number (n : Int) := token .number (.number n)
    let colon := token .colon .absent
    let tokens := [number 10, word .inputWord, name, colon, word .gosubWord, number 20,
      token .newline .absent, number 20, word .ifWord, name, token (.comparison .greater) .absent,
      number 0, word .thenWord, number 10, colon, word .endWord, colon, word .returnWord]
    let branch : Stmt :=
      .branch ⟨.var (.text "A"), .known .greater, .constant (.number 0)⟩ (.number 10)
    let program : Program := [⟨.number 10, [.input (.text "A"), .gosub (.number 20)]⟩,
      ⟨.number 20, [branch, .stop, .ret]⟩]
    let split : Program := [⟨.number 10, [.input (.text "A")]⟩,
      ⟨.number 11, [.gosub (.number 20)]⟩, ⟨.number 20, [branch]⟩, ⟨.number 11, [.stop]⟩,
      ⟨.number 21, [.ret]⟩]
    let feed : Feed := ⟨[.ok 7, .ok 0], .endOfInput⟩
    Program.ofTokens tokens = .ok program ∧ program.Splits split ∧
      (run program 4 (.initial feed)).state.returns = [1, 1] ∧
      (run split 8 (.initial feed)).state.returns = [2, 2] ∧
      (run split 8 (.initial feed)).ending = (run program 4 (.initial feed)).ending := by
  intro token word name number colon tokens branch program split feed
  have accepted : Program.ofTokens tokens = .ok program := rfl
  have fresh : ∀ n ∈ [11, 21], program.Fresh (.number n) := by
    simp only [Program.Fresh]
    decide
  have first : Line.Pieces program.Fresh ⟨.number 10, [.input (.text "A"), .gosub (.number 20)]⟩
      [⟨.number 10, [.input (.text "A")]⟩, ⟨.number 11, [.gosub (.number 20)]⟩] :=
    ⟨rfl, by simp, by simp [fresh]⟩
  have second : Line.Pieces program.Fresh ⟨.number 20, [branch, .stop, .ret]⟩
      [⟨.number 20, [branch]⟩, ⟨.number 11, [.stop]⟩, ⟨.number 21, [.ret]⟩] :=
    ⟨rfl, by simp, by simp [fresh]⟩
  have splits : program.Splits split := .cons first (.cons second .nil)
  obtain ⟨-, -, same⟩ := run_split accepted (by decide) splits feed
  obtain ⟨ending, state⟩ := same 4 8 (by decide) (by decide)
  have returns : (run program 4 (.initial feed)).state.returns = [1, 1] := by decide
  refine ⟨accepted, splits, returns, ?_, ending⟩
  rw [state, State.relocate_returns, returns]
  rfl

end Machine

end LineBasic
