import LineBasic.Machine.Run
import LineBasic.Program.Reader
import LineBasic.Text.Encoding
import LineBasic.Token.Scan

/-!
# From a source text to a program, and what can fail

A source text comes from a file in UTF-8, whose line breaks are unified. It is cut
into tokens, and these are read as a program. Each stage has its own errors; a
failure is an error of any stage, up to and including the run.
-/

namespace LineBasic

/-- Why a program does not come to its end. -/
inductive Failure where
  | missingFile
  | encoding (error : Text.EncodingError)
  | scan (error : Token.ScanError)
  | grammar (error : Program.GrammarError)
  | fault (cause : Fault)
  | unfinished
deriving DecidableEq, Repr

/-- The wording of a failure. A run that was cut off has none. -/
def Failure.message : Failure → String
  | .missingFile => "[Errno 2] No such file or directory: 'program.txt'"
  | .encoding error => error.message
  | .scan error => error.message
  | .grammar error => error.message
  | .fault cause => cause.message
  | .unfinished => ""

/-- The failure, if any, that an ending of a run is. -/
def Machine.Ending.failure? : Ending → Option Failure
  | .completed => none
  | .faulted cause => some (.fault cause)
  | .unfinished => some .unfinished

namespace Source

/-- The source text that a file holds. -/
def ofBytes (bytes : List UInt8) : Except Text.EncodingError String :=
  (Text.decode bytes).map fun text => String.ofList (Text.unifyBreaks text)

/-- The program that a source text writes. -/
def program (source : String) : Except Failure Program :=
  match Token.scan source with
  | .error error => .error (.scan error)
  | .ok tokens =>
    match Program.ofTokens tokens with
    | .error error => .error (.grammar error)
    | .ok program => .ok program

end Source

end LineBasic
