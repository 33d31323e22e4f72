import LineBasic.Console
import LineBasic.Proofs.MoreInput

/-!
# Sessions at a terminal

At a terminal a program is run in attempts, each of them from its beginning, and every attempt
writes only what those before it have not shown. Nothing is lost or written twice by this: an
attempt with more replies and a greater limit shows what an earlier one has shown, and goes on
from there. So a session writes what a single run writes that is given all the lines in advance,
and fails as that run does. It comes to its end exactly if that run does, because the limits of
its attempts grow past any number.
-/

namespace LineBasic

/-! ## Limits and replies -/

namespace Machine

/-- A run records no more lines than its limit, and that many if it reaches the limit. The
induction is on the lines of the run, each of which takes one from the limit. -/
theorem runFrom_length (program : Program) (limit : Nat) (index : Int) (state : State)
    (visits : List Visit) :
    let report := runFrom program limit index state visits
    report.visits.length ≤ visits.length + limit ∧
      (report.ending = .unfinished → report.visits.length = visits.length + limit) := by
  fun_induction runFrom program limit index state visits with
  | case1 => simp
  | case2 index state visits inside limit after ran visited =>
    have longer : visited.length = visits.length + 1 := rfl
    simp [longer]
  | case3 index state visits inside limit next after ran visited goesOn =>
    rename_i inductionHypothesis
    have longer : visited.length = visits.length + 1 := rfl
    rw [longer, Nat.add_right_comm, Nat.add_assoc] at inductionHypothesis
    exact inductionHypothesis
  | case4 => simp
  | case5 => simp

/-- The same for a run from the first line on. -/
theorem run_length (program : Program) (limit : Nat) (state : State) :
    let report := run program limit state
    report.visits.length ≤ limit ∧
      (report.ending = .unfinished → report.visits.length = limit) := by
  have recorded := runFrom_length program limit 0 state []
  rwa [List.length_nil, Nat.zero_add] at recorded

/-- A run that ends within two limits is the same under both. -/
theorem run_unique {program : Program} {limit most : Nat} {state : State}
    (ends : (run program limit state).ending ≠ .unfinished)
    (alsoEnds : (run program most state).ending ≠ .unfinished) :
    run program limit state = run program most state := by
  rcases Nat.le_total limit most with less | less
  · exact (runFrom_limit less ends).symm
  · exact runFrom_limit less alsoEnds

/-- The replies of lines that are entered one after another. -/
def Feed.entered (lines : List String) : List (Except Fault Int) :=
  lines.flatMap fun line => (Feed.ofText line).replies

/-- Lines entered one after another give the replies of the whole text, if each of them but the
last is ended. -/
theorem Feed.ofText_join {lines : List String}
    (ended : ∀ line ∈ lines.dropLast, Text.Ended line.toList) :
    Feed.ofText (String.join lines) = ⟨Feed.entered lines, .endOfInput⟩ := by
  induction lines with
  | nil => rfl
  | cons line lines inductionHypothesis =>
    cases lines with
    | nil => simp [Feed.entered, Feed.ofText]
    | cons second others =>
      obtain ⟨here, later⟩ := List.forall_mem_cons.mp ended
      rw [String.join_cons, Feed.ofText_append here, inductionHypothesis later]
      rfl

end Machine

namespace Console

open Machine

variable {program : Program} {attempt : Attempt} {lines : List String} {transcript : Transcript}
  {log : List Event} {more : List (Except Fault Int)} {most : Nat}

/-! ## Attempts -/

/-- A session from an attempt on, at a terminal where the lines are entered, and what it writes.
A session that asks for a line when none is left has failed for want of input. -/
inductive Converses (program : Program) : Attempt → List String → Transcript → Prop where
  | ended {attempt : Attempt} {lines : List String} {failure : Option Failure}
      (comes : attempt.next (attempt.report program) = .ended failure) :
      Converses program attempt lines ⟨attempt.news (attempt.report program), failure⟩
  | again {attempt later : Attempt} {lines : List String} {transcript : Transcript}
      (comes : attempt.next (attempt.report program) = .again later)
      (rest : Converses program later lines transcript) :
      Converses program attempt lines
        ⟨attempt.news (attempt.report program) ++ transcript.output, transcript.failure⟩
  | deserted {attempt later : Attempt}
      (comes : attempt.next (attempt.report program) = .asks later) :
      Converses program attempt []
        ⟨attempt.news (attempt.report program), some (.fault .endOfInput)⟩
  | heard {attempt later : Attempt} {line : String} {lines : List String}
      {transcript : Transcript} (comes : attempt.next (attempt.report program) = .asks later)
      (rest : Converses program (later.hear line) lines transcript) :
      Converses program attempt (line :: lines)
        ⟨attempt.news (attempt.report program) ++ transcript.output, transcript.failure⟩

namespace Attempt

/-- The attempt with further replies behind its own, and with another limit. -/
def extended (attempt : Attempt) (more : List (Except Fault Int)) (limit : Nat) : Attempt :=
  { attempt with replies := attempt.replies ++ more, limit }

/-- Without further replies an attempt is what it was. -/
theorem extended_nil (attempt : Attempt) : attempt.extended [] attempt.limit = attempt := by
  rw [extended, List.append_nil]

/-- What comes after an attempt depends on how its run ends. -/
theorem next_cases {report : Report} {next : Next} (comes : attempt.next report = next) :
    report.ending = .unfinished ∧ next = .again (attempt.told report).raise ∨
      report.ending = .faulted .endOfInput ∧ next = .asks (attempt.told report) ∨
      (report.ending ≠ .unfinished ∧ report.ending ≠ .faulted .endOfInput) ∧
        next = .ended report.ending.failure? := by
  rw [Attempt.next] at comes
  split at comes
  · next isEnding => exact .inl ⟨isEnding, comes.symm⟩
  · next isEnding => exact .inr (.inl ⟨isEnding, comes.symm⟩)
  · next finished fed => exact .inr (.inr ⟨⟨finished, fed⟩, comes.symm⟩)

/-- Further replies come behind those of a line that has been heard. -/
theorem report_hear_extended (attempt : Attempt) (told : Report) (line : String)
    (more : List (Except Fault Int)) (most : Nat) (program : Program) :
    (((attempt.told told).hear line).extended more most).report program =
      (attempt.extended ((Feed.ofText line).replies ++ more) most).report program := by
  rw [report, report, extended, extended, ← List.append_assoc]
  rfl

/-- A run with further replies and no smaller limit goes on from where that of an attempt stops. -/
theorem continues (enough : attempt.limit ≤ most) :
    (attempt.report program).Continues more .endOfInput .endOfInput
      ((attempt.extended more most).report program) :=
  runFrom_continues enough rfl

/-- An attempt that reaches its limit allows no more lines than a run that ends, with whatever
replies may follow. The run that ends has completed all the lines of the attempt. -/
theorem limit_le (unfinished : (attempt.report program).ending = .unfinished)
    (ends : ((attempt.extended more most).report program).ending ≠ .unfinished) :
    attempt.limit ≤ most := by
  refine Nat.le_of_not_lt fun less => ?_
  have same : (attempt.extended more attempt.limit).report program =
      (attempt.extended more most).report program := runFrom_limit (Nat.le_of_lt less) ends
  have all : (attempt.report program).visits.length = attempt.limit :=
    (run_length program attempt.limit _).2 unfinished
  have few : ((attempt.extended more most).report program).visits.length ≤ most :=
    (run_length program most _).1
  have visited : (attempt.report program).visits <:+
      ((attempt.extended more attempt.limit).report program).visits :=
    (continues (Nat.le_refl _)).visits
  have fits := visited.length_le
  rw [same, all] at fits
  omega

/-- A run that has ended by itself, with all the replies that it asked for, is the same when
further replies follow. -/
theorem report_of_ended (finished : (attempt.report program).ending ≠ .unfinished)
    (fed : (attempt.report program).ending ≠ .faulted .endOfInput) :
    (attempt.extended more attempt.limit).report program =
      (attempt.report program).supplied more .endOfInput :=
  (continues (Nat.le_refl _)).eq_supplied finished fed

/-! ## What has been shown -/

/-- The attempts before this one have shown the events of a log, and so does every run that has
the replies of this one and at least its limit. -/
structure Follows (program : Program) (log : List Event) (attempt : Attempt) : Prop where
  shown : attempt.shown = log.length
  kept : ∀ more most, attempt.limit ≤ most →
    log <:+ ((attempt.extended more most).report program).state.log

/-- No attempt comes before the first. -/
theorem follows_first : Follows program [] .first := ⟨rfl, fun _ _ _ => List.nil_suffix⟩

/-- The attempt with a greater limit follows what an attempt has shown. -/
theorem follows_raise (attempt : Attempt) :
    Follows program (attempt.report program).state.log
      (attempt.told (attempt.report program)).raise := by
  refine ⟨rfl, fun more most enough => ?_⟩
  have raised : 2 * attempt.limit + 1 ≤ most := enough
  have stillEnough : attempt.limit ≤ most := by omega
  exact (continues stillEnough).log

/-- So does the one with another line of input. -/
theorem follows_hear (attempt : Attempt) (line : String) :
    Follows program (attempt.report program).state.log
      ((attempt.told (attempt.report program)).hear line) := by
  refine ⟨rfl, fun more most enough => ?_⟩
  have stillEnough : attempt.limit ≤ most := enough
  rw [report_hear_extended]
  exact (continues stillEnough).log

/-- What has been shown before and the news of an attempt are all the output of its run. -/
theorem Follows.output (follows : Follows program log attempt) :
    (attempt.report program).state.output =
      String.join (log.reverse.map Event.text) ++ attempt.news (attempt.report program) := by
  have kept := follows.kept [] attempt.limit (Nat.le_refl _)
  rw [extended_nil] at kept
  obtain ⟨events, isLonger⟩ := kept
  rw [State.output, news, follows.shown, ← isLonger, List.reverse_append,
    ← List.length_reverse, List.drop_left, List.map_append, String.join_append]

end Attempt

/-! ## Sessions -/

/-- From an attempt on, a session writes what a run with all the lines shows beyond the log, and
fails as this run does. The induction is on the attempts: the last of them has come to the same
stop as the run, and those before it have written a part of the output each. -/
theorem Converses.sound (converses : Converses program attempt lines transcript)
    (follows : attempt.Follows program log) :
    ∃ most, let report := (attempt.extended (Feed.entered lines) most).report program
      report.ending ≠ .unfinished ∧ report.ending.failure? = transcript.failure ∧
        report.state.output = String.join (log.reverse.map Event.text) ++ transcript.output := by
  induction converses generalizing log with
  | @ended attempt lines failure comes =>
    obtain ⟨-, other⟩ | ⟨-, other⟩ | ⟨⟨finished, fed⟩, same⟩ := Attempt.next_cases comes
    · cases other
    · cases other
    · obtain rfl := Attempt.Next.ended.inj same
      refine ⟨attempt.limit, ?_⟩
      rw [← follows.output, Attempt.report_of_ended finished fed]
      exact ⟨finished, rfl, rfl⟩
  | @again attempt later lines transcript comes rest inductionHypothesis =>
    obtain ⟨-, same⟩ | ⟨-, other⟩ | ⟨-, other⟩ := Attempt.next_cases comes
    · obtain rfl := Attempt.Next.again.inj same
      obtain ⟨most, ends, fails, output⟩ := inductionHypothesis attempt.follows_raise
      refine ⟨most, ends, fails, output.trans ?_⟩
      rw [← String.append_assoc, ← follows.output]
      rfl
    · cases other
    · cases other
  | @deserted attempt later comes =>
    obtain ⟨-, other⟩ | ⟨starved, -⟩ | ⟨-, other⟩ := Attempt.next_cases comes
    · cases other
    · refine ⟨attempt.limit, ?_⟩
      have same : attempt.extended (Feed.entered []) attempt.limit = attempt :=
        attempt.extended_nil
      rw [same]
      refine ⟨?_, ?_, follows.output⟩
      · rw [starved]
        exact Ending.noConfusion
      · rw [starved, Ending.failure?]
    · cases other
  | @heard attempt later line lines transcript comes rest inductionHypothesis =>
    obtain ⟨-, other⟩ | ⟨-, same⟩ | ⟨-, other⟩ := Attempt.next_cases comes
    · cases other
    · obtain rfl := Attempt.Next.asks.inj same
      obtain ⟨most, ends, fails, output⟩ := inductionHypothesis (attempt.follows_hear line)
      rw [Attempt.report_hear_extended] at ends fails output
      refine ⟨most, ends, fails, output.trans ?_⟩
      rw [← String.append_assoc, ← follows.output]
      rfl
    · cases other

/-- A session comes to its end if a run with all its lines does. Each attempt uses up a line of
input or raises a limit that is below that of the run. -/
theorem exists_converses
    (ends : ((attempt.extended (Feed.entered lines) most).report program).ending ≠ .unfinished) :
    ∃ transcript, Converses program attempt lines transcript := by
  generalize size : lines.length + (most + 1 - attempt.limit) = count
  induction count using Nat.strongRecOn generalizing attempt lines with
  | ind count inductionHypothesis =>
    obtain ⟨unfinished, comes⟩ | ⟨-, comes⟩ | ⟨-, comes⟩ :=
      Attempt.next_cases (Eq.refl (attempt.next (attempt.report program)))
    · have within := Attempt.limit_le unfinished ends
      let later := (attempt.told (attempt.report program)).raise
      have less : lines.length + (most + 1 - later.limit) < count := by
        have raised : later.limit = 2 * attempt.limit + 1 := rfl
        omega
      have stillEnds :
          ((later.extended (Feed.entered lines) most).report program).ending ≠ .unfinished := ends
      obtain ⟨transcript, rest⟩ := inductionHypothesis _ less stillEnds rfl
      exact ⟨_, .again comes rest⟩
    · cases lines with
      | nil => exact ⟨_, .deserted comes⟩
      | cons line lines =>
        let later := (attempt.told (attempt.report program)).hear line
        have less : lines.length + (most + 1 - later.limit) < count := by
          have same : later.limit = attempt.limit := rfl
          rw [List.length_cons] at size
          omega
        have stillEnds :
            ((later.extended (Feed.entered lines) most).report program).ending ≠ .unfinished := by
          rw [Attempt.report_hear_extended]
          exact ends
        obtain ⟨transcript, rest⟩ := inductionHypothesis _ less stillEnds rfl
        exact ⟨_, .heard comes rest⟩
    · exact ⟨_, .ended comes⟩

/-- A whole session writes what a run with all the lines shows. -/
theorem Converses.transcript_eq (converses : Converses program .first lines transcript) :
    ∃ limit, let report := (Attempt.first.extended (Feed.entered lines) limit).report program
      report.ending ≠ .unfinished ∧
        transcript = ⟨report.state.output, report.ending.failure?⟩ := by
  obtain ⟨limit, ends, fails, output⟩ := converses.sound Attempt.follows_first
  rw [List.reverse_nil, List.map_nil, String.join_nil, String.empty_append] at output
  refine ⟨limit, ends, ?_⟩
  simp only [fails, output]

/-- A session at a terminal, where each line but perhaps the last is entered with its end, comes
to a stop exactly if a run with all of these lines in advance does. It then has written what the
run shows, no more and no less, and has failed if and as the run has. One direction follows the
attempts of the session to the last. For the other, the run gives a bound on the attempts, so
there is a session; by the first direction it writes what the run shows, since a run that ends is
the same under all limits. -/
theorem converses_iff (ended : ∀ line ∈ lines.dropLast, Text.Ended line.toList) :
    Converses program .first lines transcript ↔
      ∃ limit, let report := Machine.run program limit (.initial (.ofText (String.join lines)))
        report.ending ≠ .unfinished ∧
          transcript = ⟨report.state.output, report.ending.failure?⟩ := by
  rw [Feed.ofText_join ended]
  constructor
  · exact Converses.transcript_eq
  · rintro ⟨limit, ends, rfl⟩
    have first : ((Attempt.first.extended (Feed.entered lines) limit).report program).ending ≠
        .unfinished := ends
    obtain ⟨transcript, converses⟩ := exists_converses first
    obtain ⟨most, alsoEnds, isTranscript⟩ := converses.transcript_eq
    have same : Machine.run program limit (.initial ⟨Feed.entered lines, .endOfInput⟩) =
        (Attempt.first.extended (Feed.entered lines) most).report program :=
      run_unique ends alsoEnds
    rw [same, ← isTranscript]
    exact converses

/-- A whole session at a terminal where the lines are entered: the opening, and then the attempts
if there is a program. -/
def AtTerminal (source : String) (lines : List String) (transcript : Transcript) : Prop :=
  match opening source with
  | (written, .error failure) => transcript = ⟨written, some failure⟩
  | (written, .ok program) => ∃ told, Converses program .first lines told ∧
      transcript = ⟨written ++ told.output, told.failure⟩

/-- What fails before the run is not cut off. -/
theorem opening_ne_unfinished {source : String} {failure : Failure}
    (failed : (opening source).2 = .error failure) : failure ≠ .unfinished := by
  rw [opening] at failed
  split at failed
  · cases failed
    exact Failure.noConfusion
  · split at failed
    · cases failed
      exact Failure.noConfusion
    · cases failed

/-- A run is cut off exactly if it is unfinished. -/
theorem failure?_ne_unfinished_iff {ending : Ending} :
    ending.failure? ≠ some .unfinished ↔ ending ≠ .unfinished := by
  cases ending with
  | completed => simp [Ending.failure?]
  | faulted fault => simp [Ending.failure?]
  | unfinished => simp [Ending.failure?]

/-- The sessions at a terminal are those with the input in advance that are not cut off by their
limit. Both have the same opening; behind it stand the attempts of the one and the run of the
other. -/
theorem atTerminal_iff {source : String}
    (ended : ∀ line ∈ lines.dropLast, Text.Ended line.toList) :
    AtTerminal source lines transcript ↔
      ∃ limit, ofSource source (String.join lines) limit = transcript ∧
        transcript.failure ≠ some .unfinished := by
  unfold AtTerminal ofSource
  rcases isOpening : opening source with ⟨written, failure | program⟩
  · have cause : failure ≠ .unfinished := opening_ne_unfinished (congrArg Prod.snd isOpening)
    have uncut : some failure ≠ some .unfinished := fun same => cause (Option.some.inj same)
    constructor
    · rintro rfl
      exact ⟨0, rfl, uncut⟩
    · rintro ⟨-, rfl, -⟩
      rfl
  · simp only [converses_iff ended]
    constructor
    · rintro ⟨-, ⟨limit, ends, rfl⟩, rfl⟩
      exact ⟨limit, rfl, failure?_ne_unfinished_iff.mpr ends⟩
    · rintro ⟨limit, rfl, uncut⟩
      exact ⟨_, ⟨limit, failure?_ne_unfinished_iff.mp uncut, rfl⟩, rfl⟩

end Console

end LineBasic
