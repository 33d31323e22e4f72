import LineBasic.Program.Listing
import LineBasic.Source

/-!
# A console session

A session lists the tokens of a program file, lists the program, and runs it. Each
part appears only when the stages before it have succeeded; what has been written
stays when a later stage fails.

At a terminal the input is not there in advance. The program is then run in attempts,
each with the replies that have been entered so far and a limit on the lines executed.
An attempt that reaches its limit is followed by one with a greater limit, and an
attempt that lacks a reply by one with the line that is entered next. Each of them
writes what the attempts before it have not shown.
-/

namespace LineBasic.Console

open Machine (State)

/-- What a session writes, and why it stopped before its end. -/
structure Transcript where
  output : String
  failure : Option Failure
deriving DecidableEq, Repr

/-- The rule between the parts of a session. -/
def rule : String := String.ofList (List.replicate 40 '-') ++ "\n"

/-- The first part: the tokens. -/
def tokensPart (tokens : List Token) : String :=
  "Tokens gerados pelo Lexer:\n" ++ Token.listing tokens ++ rule

/-- The second part: the program. -/
def programPart (program : Program) : String :=
  "AST gerada pelo Parser:\n" ++ program.listing ++ rule

/-- What the session for a source text writes before the run, and the program to be run
or why there is none. -/
def opening (source : String) : String × Except Failure Program :=
  match Token.scan source with
  | .error error => ("", .error (.scan error))
  | .ok tokens =>
    match Program.ofTokens tokens with
    | .error error => (tokensPart tokens, .error (.grammar error))
    | .ok program => (tokensPart tokens ++ programPart program, .ok program)

/-- The session for a source text, with the input text given in advance and a limit
on the lines executed. -/
def ofSource (source input : String) (limit : Nat) : Transcript :=
  match opening source with
  | (written, .error failure) => ⟨written, some failure⟩
  | (written, .ok program) =>
    let report := Machine.run program limit (State.initial (.ofText input))
    ⟨written ++ report.state.output, report.ending.failure?⟩

/-- The session for a program file, which may be missing. -/
def ofFile (file : Option (List UInt8)) (input : String) (limit : Nat) : Transcript :=
  match file with
  | none => ⟨"", some .missingFile⟩
  | some bytes =>
    match Source.ofBytes bytes with
    | .error error => ⟨"", some (.encoding error)⟩
    | .ok source => ofSource source input limit

/-! ## At a terminal -/

/-- An attempt at running a program: the replies entered so far, the limit on the lines
executed, and how many events have been shown before. -/
structure Attempt where
  replies : List (Except Fault Int)
  limit : Nat
  shown : Nat

namespace Attempt

/-- What comes after an attempt: the end of the session, another attempt at once, or one
with the next line of input. -/
inductive Next where
  | ended (failure : Option Failure)
  | again (later : Attempt)
  | asks (later : Attempt)

/-- The attempt with which a session begins. -/
def first : Attempt := ⟨[], 1, 0⟩

/-- The run of a program in an attempt. -/
def report (attempt : Attempt) (program : Program) : Machine.Report :=
  Machine.run program attempt.limit (State.initial ⟨attempt.replies, .endOfInput⟩)

/-- What an attempt has to write, given the report of its run. -/
def news (attempt : Attempt) (report : Machine.Report) : String :=
  String.join ((report.state.log.reverse.drop attempt.shown).map Machine.Event.text)

/-- The attempt after all that a run has shown. -/
def told (attempt : Attempt) (report : Machine.Report) : Attempt :=
  { attempt with shown := report.state.log.length }

/-- The attempt with a greater limit. -/
def raise (attempt : Attempt) : Attempt := { attempt with limit := 2 * attempt.limit + 1 }

/-- What comes after an attempt, given the report of its run. -/
def next (attempt : Attempt) (report : Machine.Report) : Next :=
  match report.ending with
  | .unfinished => .again (attempt.told report).raise
  | .faulted .endOfInput => .asks (attempt.told report)
  | ending => .ended ending.failure?

/-- The attempt with one more line of input. -/
def hear (attempt : Attempt) (line : String) : Attempt :=
  { attempt with replies := attempt.replies ++ (Machine.Feed.ofText line).replies }

end Attempt

end LineBasic.Console
