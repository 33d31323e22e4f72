import LineBasic.Proofs.Margins
import LineBasic.Proofs.MoreInput
import LineBasic.Window

/-!
# What a run in the window shows

Pressing the button that runs the program comes to nothing if there is no text to run.
Otherwise the text is cut, read and executed, as far as that goes. Each area follows its own
rule: it shows the result of its stage if the stage was reached and succeeded, and keeps what
it showed otherwise. The dialogs are the questions of the program, and behind them the failure
if there is one.
-/

namespace LineBasic.Window

open Machine

/-! ## The run of a program -/

/-- Lines added to an area stand below those that it has. -/
theorem areaText_append (lines others : List String) :
    areaText (lines ++ others) = areaText lines ++ areaText others := by
  rw [areaText, areaText, areaText, List.map_append, String.join_append]

/-- What the output area shows of a run: its questions, and behind them what it has printed if
it came to its end. -/
def outputText (report : Report) : String :=
  areaText (report.state.prompts.map promptText ++
    if report.ending = .completed then report.state.printed else [])

/-- The questions of a run. -/
def questions (report : Report) : List Dialog :=
  report.state.prompts.map fun name => .ask "Entrada de Dados" (promptText name)

/-- The window and the dialogs after the run of a program. -/
theorem execute_eq (window : Window) (program : Program) (answers : List (Option String))
    (limit : Nat) :
    let report := Machine.run program limit (State.initial (feed answers))
    window.execute program answers limit =
      ({ window with
          output := outputText report
          terminal := if report.ending = .completed then window.terminal
            else .redirected window.runs },
        questions report ++ (report.ending.failure?.map failureDialog).toList) := by
  dsimp only [execute, clear, connect, display]
  generalize Machine.run program limit (State.initial (feed answers)) = report
  obtain ⟨ending, state, visits⟩ := report
  cases ending with
  | completed =>
    simp [Ending.failure?, outputText, areaText_append, questions, Function.comp_def]
  | faulted fault => simp [Ending.failure?, outputText, questions, Function.comp_def]
  | unfinished => simp [Ending.failure?, outputText, questions, Function.comp_def]

/-! ## The stages -/

/-- A press of the button: the text to run and the answers to come. -/
structure Press where
  source : String
  answers : List (Option String)
deriving DecidableEq, Repr

namespace Press

/-- The tokens, if there is a text that can be cut. -/
def tokens? (press : Press) : Option (List Token) :=
  if press.source = "" then none else (Token.scan press.source).toOption

/-- The program, if there is a text that can be read. -/
def program? (press : Press) : Option Program :=
  if press.source = "" then none else (Source.program press.source).toOption

/-- The run of a program against the answers. -/
def report (press : Press) (limit : Nat) (program : Program) : Report :=
  Machine.run program limit (State.initial (feed press.answers))

/-- The program and its run. -/
def execution? (press : Press) (limit : Nat) : Option (Program × Report) :=
  press.program?.map fun program => (program, press.report limit program)

/-- The questions and, if there is no text or a stage fails, the error. -/
def dialogs (press : Press) (limit : Nat) : List Dialog :=
  if press.source = "" then [.error "Erro" "Nenhum código carregado."]
  else
    match Source.program press.source with
    | .error failure => [failureDialog failure]
    | .ok program =>
      let report := press.report limit program
      questions report ++ (report.ending.failure?.map failureDialog).toList

variable {press : Press}

/-- A press has tokens exactly if there is a text and it can be cut into these. -/
theorem tokens?_eq_some_iff {tokens : List Token} :
    press.tokens? = some tokens ↔ press.source ≠ "" ∧ Token.scan press.source = .ok tokens := by
  rw [tokens?, Option.ite_none_left_eq_some]
  cases Token.scan press.source <;> simp [Except.toOption]

/-- A press has a program exactly if there is a text and it is read as this one. -/
theorem program?_eq_some_iff {program : Program} :
    press.program? = some program ↔
      press.source ≠ "" ∧ Source.program press.source = .ok program := by
  rw [program?, Option.ite_none_left_eq_some]
  cases Source.program press.source <;> simp [Except.toOption]

end Press

/-- The window and the dialogs after a press of the button. -/
theorem run_eq (window : Window) (answers : List (Option String)) (limit : Nat) :
    let press : Press := ⟨window.toRun, answers⟩
    window.run answers limit =
      ({ window with
          held := window.toRun
          tokens := (press.tokens?.map Token.listing).getD window.tokens
          ast := ((press.execution? limit).map fun ran => ran.1.listing).getD window.ast
          output := ((press.execution? limit).map fun ran => outputText ran.2).getD window.output
          terminal := ((press.execution? limit).map fun ran =>
            if ran.2.ending = .completed then window.terminal
            else .redirected (window.runs + 1)).getD window.terminal
          runs := window.runs + 1 },
        press.dialogs limit) := by
  intro press
  unfold run
  by_cases nothing : window.toRun = ""
  · simp [press, Press.tokens?, Press.program?, Press.execution?, Press.dialogs, nothing]
  · simp only [press, Press.tokens?, Press.program?, Press.execution?, Press.dialogs,
      Press.report, if_neg nothing, Source.program, runSource]
    cases Token.scan window.toRun with
    | error error => rfl
    | ok tokens =>
      dsimp only
      cases Program.ofTokens tokens with
      | error error => rfl
      | ok program => exact execute_eq _ program answers limit

/-! ## The window and a console -/

section Console

variable {answers : List String} {input : String} {limit most : Nat}

/-- An answer that is read as an integer counts for what it would be on a console: trimming it
first does not matter, and it is not a decimal. -/
theorem answer_eq_reply {text : String} {n : Int} (accepted : Numeral.read text.toList = .ok n) :
    answer (some text) = reply text.toList := by
  obtain ⟨trimmed, noPoint⟩ := Numeral.read_trim accepted
  simp [answer, noPoint, reply, trimmed, accepted, Except.mapError]

section Lines

variable (accepted : ∀ answer ∈ answers, ∃ n, Numeral.read answer.toList = .ok n)
  (unbroken : ∀ answer ∈ answers, '\n' ∉ answer.toList ∧ '\r' ∉ answer.toList)
  (written : Text.OnePerLine answers input)

include accepted unbroken written

/-- Answers that are read as integers come in as from a console, except for what follows them. -/
theorem feed_onePerLine :
    State.initial (feed (answers.map some)) =
      (State.initial (.ofText input)).supplied [] (.notAnInteger []) := by
  have filled : ∀ answer ∈ answers, answer ≠ "" := by
    rintro answer isAnswer rfl
    obtain ⟨n, accepted⟩ := accepted "" isAnswer
    cases accepted
  have replies : (answers.map some).map answer = answers.map fun text => reply text.toList := by
    rw [List.map_map]
    refine List.map_congr_left fun text isAnswer => ?_
    obtain ⟨n, accepted⟩ := accepted text isAnswer
    exact answer_eq_reply accepted
  rw [Feed.ofText_onePerLine written filled unbroken, feed, replies]
  simp [State.supplied, State.initial]

/-- A run on a console that ends by itself, with the input that it asks for, is the same in the
window. -/
theorem run_feed (program : Program) (enough : limit ≤ most)
    (finished : (Machine.run program limit (.initial (.ofText input))).ending ≠ .unfinished)
    (fed : (Machine.run program limit (.initial (.ofText input))).ending ≠
      .faulted .endOfInput) :
    Machine.run program most (.initial (feed (answers.map some))) =
      (Machine.run program limit (.initial (.ofText input))).supplied [] (.notAnInteger []) := by
  have continues : Report.Continues [] (.notAnInteger []) .endOfInput
      (Machine.run program limit (.initial (.ofText input)))
      (Machine.run program most (.initial (feed (answers.map some)))) := by
    rw [feed_onePerLine accepted unbroken written]
    exact runFrom_continues enough rfl
  exact continues.eq_supplied finished fed

end Lines

/-- The window runs the same language as a console. The text is that which is held, and the
answers are integers, which a console is given one per line. If the console comes to a stop and
does not lack input, then so does the window, with any limit that is not smaller. It asks the same
questions in the same order. If the console gets to the end of the program there is no error, and
the output area has the questions and then the printed lines. If the console fails, in cutting or
in reading the text or in its run, the window shows that failure and no other error.

The answers are the replies that a console reads from the input, with another fault behind them. A
run that never gets there does not know the difference, so that the two runs are the same. The rest
is what the window shows of a run. -/
theorem run_as_console (window : Window) (filled : window.held ≠ "")
    (accepted : ∀ answer ∈ answers, ∃ n, Numeral.read answer.toList = .ok n)
    (unbroken : ∀ answer ∈ answers, '\n' ∉ answer.toList ∧ '\r' ∉ answer.toList)
    (written : Text.OnePerLine answers input)
    (stops : ∀ program, Source.program window.held = .ok program →
      let console := Machine.run program limit (.initial (.ofText input))
      console.ending ≠ .unfinished ∧ console.ending ≠ .faulted .endOfInput)
    (enough : limit ≤ most) :
    let shown := window.run (answers.map some) most
    match Source.program window.held with
    | .error failure => shown.2 = [.error "Erro de Execução" failure.message]
    | .ok program =>
      let console := Machine.run program limit (.initial (.ofText input))
      let prompts := console.state.prompts.map promptText
      let asked := prompts.map (Dialog.ask "Entrada de Dados")
      (Machine.run program most (.initial (feed (answers.map some)))).ending ≠ .unfinished ∧
      (console.ending = .completed →
        shown.2 = asked ∧ shown.1.output = areaText (prompts ++ console.state.printed)) ∧
      ∀ fault, console.ending = .faulted fault →
        shown.2 = asked ++ [.error "Erro de Execução" fault.message] := by
  intro shown
  have source : window.toRun = window.held := if_neg filled
  have isShown : shown = _ := run_eq window (answers.map some) most
  rw [source] at isShown
  cases isProgram : Source.program window.held with
  | error failure => simp [isShown, Press.dialogs, filled, isProgram, failureDialog]
  | ok program =>
    obtain ⟨finished, fed⟩ := stops program isProgram
    have same := run_feed accepted unbroken written program enough finished fed
    simp only [isShown, Press.execution?, Press.program?, Press.dialogs, Press.report,
      if_neg filled, isProgram, Except.toOption, Option.map_some, Option.getD_some, same]
    generalize Machine.run program limit (.initial (.ofText input)) = console at finished
    obtain ⟨ending, state, visits⟩ := console
    refine ⟨finished, ?_, ?_⟩
    · rintro rfl
      simp [Report.supplied, Ending.failure?, questions, outputText, Function.comp_def,
        State.prompts, State.printed]
    · rintro fault rfl
      simp [Report.supplied, Ending.failure?, questions, Function.comp_def, State.prompts,
        failureDialog, Failure.message]

/-- Answers with margins, with a digit of another script and with an underscore. -/
theorem run_as_console_division :
    let window : Window := { initial with held := "1 INPUT A : INPUT B : PRINT A / B" }
    let shown := window.run ([" ７\t", "-0_2"].map some) 9
    shown.2 = [.ask "Entrada de Dados" "Digite A: ", .ask "Entrada de Dados" "Digite B: "] ∧
      shown.1.output = "Digite A: \nDigite B: \n-4\n" := by
  intro window shown
  let program : Program := [⟨.number 1, [.input (.text "A"), .input (.text "B"),
    .print [.value (.binary .dividedBy (.var (.text "A")) (.var (.text "B")))]]⟩]
  have isProgram : Source.program window.held = .ok program := by decide +kernel
  have accepted : ∀ answer ∈ [" ７\t", "-0_2"], ∃ n, Numeral.read answer.toList = .ok n := by
    simp only [List.forall_mem_cons]
    exact ⟨⟨7, by decide +kernel⟩, ⟨-2, by decide +kernel⟩, by simp⟩
  have written : Text.OnePerLine [" ７\t", "-0_2"] " ７\t\n-0_2" :=
    .inr ⟨[" ７\t"], "-0_2", rfl, by decide⟩
  have completed :
      (Machine.run program 1 (.initial (.ofText " ７\t\n-0_2"))).ending = .completed := by
    decide +kernel
  have same := run_as_console window (by decide) accepted (by decide) written
    (fun other isOther => by
      obtain rfl : program = other := Except.ok.inj (isProgram.symm.trans isOther)
      simp [completed]) (by decide : 1 ≤ 9)
  rw [isProgram] at same
  obtain ⟨asked, output⟩ := same.2.1 completed
  exact ⟨asked.trans (by decide +kernel), output.trans (by decide +kernel)⟩

end Console

end LineBasic.Window
