import LineBasic.Fault
import LineBasic.Machine.Store
import LineBasic.Text.Lines

/-!
# The state of a machine

A machine holds its variables, the line indexes to which subroutines return, the
input still to come, and a log of what it has asked and printed. The latest return
and the latest event come first.

Input is a feed of replies that have already been read as integers or failed to
be. A reply is used up whether it was an integer or not. What happens at the end
of the replies depends on where they come from.
-/

namespace LineBasic.Machine

/-- What a running program shows. -/
inductive Event where
  /-- It asks for the value of a variable. -/
  | prompt (name : String)
  /-- It prints a line. -/
  | line (text : String)
deriving DecidableEq, Repr

/-- The text that asks for a variable. -/
def promptText (name : String) : String := s!"Digite {name}: "

/-- An event on a console. The reply is expected on the line of the prompt. -/
def Event.text : Event → String
  | .prompt name => promptText name
  | .line text => text ++ "\n"

/-- The input still to come. -/
structure Feed where
  replies : List (Except Fault Int)
  atEnd : Fault

/-- The reply to the next question, and the input after it. -/
def Feed.next (feed : Feed) : Except Fault Int × Feed :=
  match feed.replies with
  | [] => (.error feed.atEnd, feed)
  | reply :: rest => (reply, { feed with replies := rest })

/-- A text as a reply. -/
def reply (text : List Char) : Except Fault Int :=
  (Numeral.read text).mapError (Fault.ofFlaw text)

/-- The feed of a console: one reply for each line of the input text. -/
def Feed.ofText (text : String) : Feed :=
  ⟨(Text.feedLines (Text.unifyBreaks text.toList)).map reply, .endOfInput⟩

/-- The state of a machine between two statements. -/
structure State where
  store : Store
  returns : List Int
  feed : Feed
  log : List Event

namespace State

/-- The state in which a run begins. -/
def initial (feed : Feed) : State := ⟨.empty, [], feed, []⟩

/-- Adds an event to the log. -/
def emit (state : State) (event : Event) : State := { state with log := event :: state.log }

/-- All that has been shown on a console. -/
def output (state : State) : String := String.join (state.log.reverse.map Event.text)

/-- The variables asked for, in order. -/
def prompts (state : State) : List String :=
  state.log.reverse.filterMap fun event =>
    match event with
    | .prompt name => some name
    | .line _ => none

/-- The lines printed, in order. -/
def printed (state : State) : List String :=
  state.log.reverse.filterMap fun event =>
    match event with
    | .prompt _ => none
    | .line text => some text

end State

end LineBasic.Machine
