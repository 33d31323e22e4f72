import LineBasic.Numeral.Decimal
import LineBasic.Program.Listing
import LineBasic.Source

/-!
# The window

The window has an area for the source text and three for results: the tokens, the
program and the output. It also holds a program text, which is what a run executes.
Opening a file fills both the area and the held text; editing changes the area
alone; and a run takes the text from the area only while none is held.

While a program runs, printing and asking are redirected from where they were to the
window. Where they were is noted first, and they are given back after the run. Each
question is shown in the output area as it is asked, and printed lines when printing
has been given back. A run that fails ends all this where it is: nothing is given back,
and no printed line is shown.
-/

namespace LineBasic

open Machine (Feed State)

/-- Where printing and asking go: to the system's terminal, or to the window as
redirected by one of its runs. -/
inductive Terminal where
  | system
  | redirected (run : Nat)
deriving DecidableEq, Repr

/-- What the window contains and holds. -/
structure Window where
  held : String
  code : String
  tokens : String
  ast : String
  output : String
  terminal : Terminal
  runs : Nat
deriving DecidableEq, Repr

namespace Window

/-- The text in the title bar. -/
def title : String := "TinyBasic - Compilador Visual"

/-- Width and height at the start. -/
def geometry : String := "900x600"

/-- The labels of the four areas. -/
def labels : List String := ["Código Fonte", "Tokens", "AST", "Saída do Programa"]

/-- The buttons that open a file and run the program. -/
def buttons : List String := ["Abrir Programa", "Rodar"]

/-- The window when it is shown first. -/
def initial : Window := ⟨"", "", "", "", "", .system, 0⟩

/-- What the window shows on top of itself. -/
inductive Dialog where
  | ask (title prompt : String)
  | error (title message : String)
deriving DecidableEq, Repr

/-- What a user does. A file that is not chosen is none, and so is the answer to a
question that is cancelled. -/
inductive Action where
  | edit (text : String)
  | load (file : Option (List UInt8))
  | run (answers : List (Option String))
deriving DecidableEq, Repr

/-- The dialogs that an action shows, and the error of a file that is not UTF-8. -/
structure Response where
  dialogs : List Dialog
  error : Option Text.EncodingError
deriving DecidableEq, Repr

/-- The integer that an answer gives. A cancelled answer counts as an empty one. An
answer with a point is a decimal, of which the whole part is taken; one that is
neither a decimal nor an integer is a fault. -/
def answer : Option String → Except Fault Int
  | none => Machine.reply []
  | some text =>
    let trimmed := Text.trim text.toList
    if trimmed.contains '.' then
      match Numeral.Decimal.read? trimmed with
      | some decimal =>
        match decimal.whole? with
        | some n => .ok n
        | none => .error .infiniteAnswer
      | none => Machine.reply trimmed
    else
      Machine.reply trimmed

/-- The feed of a window: the answers to come, and after them every question is
cancelled. -/
def feed (answers : List (Option String)) : Feed :=
  ⟨answers.map answer, .notAnInteger []⟩

/-- The dialog for a failure at any stage of a run. -/
def failureDialog (failure : Failure) : Dialog := .error "Erro de Execução" failure.message

/-- The lines of an area. -/
def areaText (lines : List String) : String := String.join (lines.map (· ++ "\n"))

/-- Empties the output area. -/
def clear (window : Window) : Window := { window with output := "" }

/-- Adds lines to the output area. -/
def display (window : Window) (lines : List String) : Window :=
  { window with output := window.output ++ areaText lines }

/-- Lets printing and asking go to a terminal from now on. -/
def connect (window : Window) (terminal : Terminal) : Window := { window with terminal }

/-- Executes a program with answers and shows its output. Printing and asking are given
back in a step of its own behind the run, and a failure of the run skips every step
behind it. -/
def execute (window : Window) (program : Program) (answers : List (Option String)) (limit : Nat) :
    Window × List Dialog :=
  let cleared := window.clear
  let saved := cleared.terminal
  let redirected := cleared.connect (.redirected cleared.runs)
  let report := Machine.run program limit (State.initial (feed answers))
  let prompts := report.state.prompts.map Machine.promptText
  let asked := prompts.map (Dialog.ask "Entrada de Dados")
  let ran := redirected.display prompts
  match report.ending.failure? with
  | some failure => (ran, asked ++ [failureDialog failure])
  | none =>
    let restored := ran.connect saved
    (restored.display report.state.printed, asked)

/-- Cuts, reads and executes a program text. The area of a stage changes only when
that stage succeeds. -/
def runSource (window : Window) (source : String) (answers : List (Option String)) (limit : Nat) :
    Window × List Dialog :=
  match Token.scan source with
  | .error error => (window, [failureDialog (.scan error)])
  | .ok tokens =>
    let listed := { window with tokens := Token.listing tokens }
    match Program.ofTokens tokens with
    | .error error => (listed, [failureDialog (.grammar error)])
    | .ok program => execute { listed with ast := program.listing } program answers limit

/-- The program text to run: the one that is held, or else that of the area, without
the blanks around it. -/
def toRun (window : Window) : String :=
  if window.held = "" then String.ofList (Text.trim window.code.toList) else window.held

/-- The button that runs the program. -/
def run (window : Window) (answers : List (Option String)) (limit : Nat) :
    Window × List Dialog :=
  let source := window.toRun
  let ready := { window with held := source, runs := window.runs + 1 }
  if source = "" then (ready, [.error "Erro" "Nenhum código carregado."])
  else ready.runSource source answers limit

/-- The button that opens a file. A file that is not UTF-8 changes nothing. -/
def load (window : Window) (file : Option (List UInt8)) : Except Text.EncodingError Window :=
  match file with
  | none => .ok window
  | some bytes => (Source.ofBytes bytes).map fun source =>
    { window with held := source, code := source }

/-- The window after an action, and what the action shows. Runs execute a limited
number of lines. -/
def act (window : Window) (limit : Nat) : Action → Window × Response
  | .edit text => ({ window with code := text }, ⟨[], none⟩)
  | .load file =>
    match window.load file with
    | .ok loaded => (loaded, ⟨[], none⟩)
    | .error error => (window, ⟨[], some error⟩)
  | .run answers =>
    let (after, dialogs) := window.run answers limit
    (after, ⟨dialogs, none⟩)

end Window

end LineBasic
