import LineBasic.Console

/-!
# The command line

Reads the program from the file `program.txt` in the current directory, writes the
listings, and runs the program against the terminal: attempt by attempt, with a line
of input read whenever one asks for it.
-/

namespace LineBasic.Main

open Console (Attempt)

/-- The file that holds the program. -/
def programFile : String := "program.txt"

/-- Reads the program file, if there is one. -/
def readProgram : IO (Option (List UInt8)) := do
  try
    let bytes ← IO.FS.readBinFile programFile
    pure (some bytes.data.toList)
  catch _ =>
    pure none

/-- Writes text and makes it appear at once. -/
def say (text : String) : IO Unit := do
  IO.print text
  (← IO.getStdout).flush

/-- Makes attempts at running a program to the end of the session. -/
partial def converse (program : Program) (attempt : Attempt) : IO (Option Failure) := do
  let report := attempt.report program
  say (attempt.news report)
  match attempt.next report with
  | .ended failure => pure failure
  | .again later => converse program later
  | .asks later =>
    let line ← (← IO.getStdin).getLine
    if line.isEmpty then pure (some (.fault .endOfInput))
    else converse program (later.hear line)

/-- Reports a failure. -/
def fail (failure : Failure) : IO UInt32 := do
  IO.eprintln failure.message
  pure 1

/-- The whole session. -/
def session : IO UInt32 := do
  match ← readProgram with
  | none => fail .missingFile
  | some bytes =>
    match Source.ofBytes bytes with
    | .error error => fail (.encoding error)
    | .ok source =>
      let (written, outcome) := Console.opening source
      say written
      match outcome with
      | .error failure => fail failure
      | .ok program =>
        match ← converse program .first with
        | none => pure 0
        | some failure => fail failure

end LineBasic.Main

/-- Runs the program in the current directory. -/
def main : IO UInt32 := LineBasic.Main.session
