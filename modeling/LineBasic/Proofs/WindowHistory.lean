import LineBasic.Proofs.Listings
import LineBasic.Proofs.WindowRuns
import Mathlib.Data.List.Induction

/-!
# What a window shows after any actions

The areas of a window need not belong to one run: a text that cannot be read leaves the program
and the output of an earlier one in place, under its own tokens. Each area shows the latest
result of its kind, and this is what every action keeps.

The text that is run is fixed when a file is opened, or else by the first run. What is typed
afterwards changes the area alone, and no run takes it from there until another file is opened.
-/

namespace LineBasic.Window

open Machine

/-! ## Histories -/

/-- The window after actions, one after another. -/
def after (window : Window) (limit : Nat) (history : List Action) : Window :=
  history.foldl (fun window action => (window.act limit action).1) window

/-- The press of the button that an action is. -/
def press? (window : Window) : Action → Option Press
  | .run answers => some ⟨window.toRun, answers⟩
  | .edit _ | .load _ => none

/-- The presses of the button among actions. -/
def presses (limit : Nat) : Window → List Action → List Press
  | _, [] => []
  | window, action :: rest =>
    (window.press? action).toList ++ presses limit (window.act limit action).1 rest

/-- The source text that an action opens. There is none if no file is chosen, or one that is not
UTF-8. -/
def Action.opened? : Action → Option String
  | .load (some bytes) => (Source.ofBytes bytes).toOption
  | .load none | .edit _ | .run _ => none

section Histories

variable {window : Window} {limit most : Nat} {history : List Action}

/-- Actions can be cut anywhere. -/
theorem after_append (later : List Action) :
    window.after limit (history ++ later) = (window.after limit history).after limit later :=
  List.foldl_append

/-- So can the presses among them, the later ones being those in the window as it is by then. -/
theorem presses_append (later : List Action) :
    window.presses limit (history ++ later) =
      window.presses limit history ++ (window.after limit history).presses limit later := by
  induction history generalizing window with
  | nil => rfl
  | cons action rest inductionHypothesis =>
    rw [List.cons_append, presses, presses, inductionHypothesis, List.append_assoc]
    rfl

/-- A single action is carried out. -/
theorem after_singleton (action : Action) :
    window.after limit [action] = (window.act limit action).1 := rfl

/-- A single action is at most one press. -/
theorem presses_singleton (action : Action) :
    window.presses limit [action] = (window.press? action).toList := by
  rw [presses, presses, List.append_nil]

/-- Opening a text fills the area and the held text. If none is opened, nothing changes. -/
theorem act_load (file : Option (List UInt8)) :
    (window.act limit (.load file)).1 =
      ((Action.load file).opened?.map fun source =>
        { window with held := source, code := source }).getD window := by
  cases file with
  | none => rfl
  | some bytes =>
    simp only [act, load, Action.opened?]
    cases Source.ofBytes bytes with
    | error error => rfl
    | ok source => rfl

/-! ## The areas -/

/-- The areas show the latest that presses have made: the tokens of the last text that could be
cut, and the program and the output of the last one that could be read. -/
structure Shows (limit : Nat) (presses : List Press) (window : Window) : Prop where
  tokens : window.tokens =
    ((presses.filterMap Press.tokens?).getLast?.map Token.listing).getD ""
  ast : window.ast =
    ((presses.filterMap (Press.execution? · limit)).getLast?.map fun ran =>
      ran.1.listing).getD ""
  output : window.output =
    ((presses.filterMap (Press.execution? · limit)).getLast?.map fun ran =>
      outputText ran.2).getD ""

/-- The text of the latest result, when one more thing is done that may have none. -/
theorem latest_concat {α β : Type} (result? : α → Option β) (text : β → String) (earlier : List α)
    (last : α) :
    (((earlier ++ [last]).filterMap result?).getLast?.map text).getD "" =
      ((result? last).map text).getD (((earlier.filterMap result?).getLast?.map text).getD "") := by
  cases result : result? last with
  | none => simp [result]
  | some made => simp [result]

/-- A press of the button adds its own results. -/
theorem Shows.run {earlier : List Press} (shown : Shows limit earlier window)
    (answers : List (Option String)) :
    Shows limit (earlier ++ [⟨window.toRun, answers⟩]) (window.run answers limit).1 := by
  rw [run_eq]
  constructor
  · rw [latest_concat, ← shown.tokens]
  · rw [latest_concat, ← shown.ast]
  · rw [latest_concat, ← shown.output]

/-- An action that is no press leaves the areas of results as they are. -/
theorem Shows.act {earlier : List Press} (shown : Shows limit earlier window) (action : Action) :
    Shows limit (earlier ++ (window.press? action).toList) (window.act limit action).1 := by
  cases action with
  | edit text =>
    rw [press?, Option.toList_none, List.append_nil]
    exact ⟨shown.tokens, shown.ast, shown.output⟩
  | load file =>
    rw [press?, Option.toList_none, List.append_nil, act_load]
    cases (Action.load file).opened? with
    | none => exact shown
    | some source => exact ⟨shown.tokens, shown.ast, shown.output⟩
  | run answers => exact shown.run answers

/-- The areas show the latest results after any actions. -/
theorem shows_after (limit : Nat) (history : List Action) :
    Shows limit (initial.presses limit history) (initial.after limit history) := by
  induction history using List.reverseRecOn with
  | nil => exact ⟨rfl, rfl, rfl⟩
  | append_singleton history action inductionHypothesis =>
    rw [presses_append, presses_singleton, after_append, after_singleton]
    exact inductionHypothesis.act action

/-! ## Limits -/

/-- Every program that is run comes to a stop within the limit. -/
def Stops (limit : Nat) (presses : List Press) : Prop :=
  ∀ press ∈ presses, ∀ ran ∈ press.execution? limit, ran.2.ending ≠ .unfinished

instance (limit : Nat) (presses : List Press) : Decidable (Stops limit presses) :=
  inferInstanceAs (Decidable (∀ press ∈ presses, ∀ ran ∈ press.execution? limit, _))

/-- A program that stops within a limit runs in the same way under every greater one. -/
theorem run_limit {answers : List (Option String)} (enough : limit ≤ most)
    (stops : Stops limit [⟨window.toRun, answers⟩]) :
    window.run answers most = window.run answers limit := by
  generalize isPress : (⟨window.toRun, answers⟩ : Press) = press at stops
  have ends : ∀ program, press.program? = some program →
      press.report most program = press.report limit program := by
    intro program isProgram
    refine runFrom_limit enough (stops press (List.mem_singleton_self press) (program, _) ?_)
    rw [Press.execution?, isProgram]
    rfl
  have executed : press.execution? most = press.execution? limit := by
    rw [Press.execution?, Press.execution?]
    exact Option.map_congr fun program isProgram => by rw [ends program isProgram]
  have asked : press.dialogs most = press.dialogs limit := by
    unfold Press.dialogs
    by_cases nothing : press.source = ""
    · rw [if_pos nothing, if_pos nothing]
    · rw [if_neg nothing, if_neg nothing]
      cases isProgram : Source.program press.source with
      | error failure => rfl
      | ok program =>
        simp only [ends program (Press.program?_eq_some_iff.mpr ⟨nothing, isProgram⟩)]
  rw [run_eq, run_eq, isPress, executed, asked]

/-- The same holds of any actions. -/
theorem after_limit (enough : limit ≤ most) (stops : Stops limit (window.presses limit history)) :
    window.after most history = window.after limit history := by
  induction history generalizing window with
  | nil => rfl
  | cons action rest inductionHypothesis =>
    obtain ⟨first, others⟩ := List.forall_mem_append.mp stops
    have same : window.act most action = window.act limit action := by
      cases action with
      | edit text => rfl
      | load file => rfl
      | run answers => rw [act, act, run_limit enough first]
    change (window.act most action).1.after most rest = (window.act limit action).1.after limit rest
    rw [same]
    exact inductionHypothesis others

/-! ## Errors -/

/-- Whether a dialog tells of an error. The others are questions. -/
def Dialog.isError : Dialog → Bool
  | .error .. => true
  | .ask .. => false

/-- There is a text, it can be read, and its program gets to the end. -/
def Press.Succeeds (press : Press) (limit : Nat) : Prop :=
  ∃ ran ∈ press.execution? limit, ran.2.ending = .completed

/-- Questions are not errors. -/
theorem errors_questions (report : Report) : (questions report).countP Dialog.isError = 0 := by
  simp [questions, List.countP_eq_zero, Dialog.isError]

/-- A press that does not succeed shows one error, and one that does shows none. -/
theorem Press.errors_dialogs (press : Press) (limit : Nat) :
    press.Succeeds limit ∧ (press.dialogs limit).countP Dialog.isError = 0 ∨
      ¬ press.Succeeds limit ∧ (press.dialogs limit).countP Dialog.isError = 1 := by
  unfold Succeeds execution? program? dialogs
  by_cases nothing : press.source = ""
  · refine .inr ⟨?_, ?_⟩ <;> simp [nothing, Dialog.isError]
  · cases isProgram : Source.program press.source with
    | error failure =>
      refine .inr ⟨?_, ?_⟩ <;> simp [nothing, Except.toOption, Dialog.isError, failureDialog]
    | ok program =>
      simp only [if_neg nothing, Except.toOption, Option.map_some, List.countP_append,
        errors_questions]
      cases isEnding : (press.report limit program).ending with
      | completed => exact .inl ⟨⟨_, rfl, isEnding⟩, rfl⟩
      | faulted fault => exact .inr ⟨by simp [isEnding], rfl⟩
      | unfinished => exact .inr ⟨by simp [isEnding], rfl⟩

/-- What a press lists can be written. -/
theorem Press.writable {press : Press} (short : press.source.length + 1 < Numeral.writeBound) :
    (∀ tokens ∈ press.tokens?, ∀ token ∈ tokens, token.writable = true) ∧
      ∀ program ∈ press.program?, ∀ line ∈ program, line.outline.writable = true := by
  constructor
  · intro tokens made
    exact Token.scan_writable (tokens?_eq_some_iff.mp made).2 short
  · intro program made line member
    exact (Source.program_wellFormed (program?_eq_some_iff.mp made).2).writable member

/-- After any actions in which every program that is run comes to a stop, each area shows the
latest result of its kind. Each run executes the text that is then held, and shows one error if
there is no text or if a stage fails, and none otherwise. Opening no file, or one that is not
UTF-8, changes nothing. No listing fails for a number that is too long. Nor does it matter how
large the limit is.

What each area shows is kept by every action: a run that gets to the stage replaces it, and nothing
else touches it. The errors of a run are counted case by case over its stages. That the limit does
not matter follows from the runs, each of which is the same under every greater limit. -/
theorem after_shows_latest {limit : Nat} {history : List Action}
    (stops : Stops limit (initial.presses limit history)) :
    let presses := initial.presses limit history
    let window := initial.after limit history
    Shows limit presses window ∧
    (∀ earlier answers later, history = earlier ++ .run answers :: later →
      let before := initial.after limit earlier
      let press : Press := ⟨before.toRun, answers⟩
      let shown := before.act limit (.run answers)
      press ∈ presses ∧ shown.1.held = press.source ∧
        (press.Succeeds limit ∧ shown.2.dialogs.countP Dialog.isError = 0 ∨
          ¬ press.Succeeds limit ∧ shown.2.dialogs.countP Dialog.isError = 1)) ∧
    (∀ before : Window, (before.act limit (.load none)).1 = before ∧
      ∀ bytes error, Text.decode bytes = .error error →
        (before.act limit (.load (some bytes))).1 = before) ∧
    (∀ press ∈ presses, press.source.length + 1 < Numeral.writeBound →
      (∀ tokens ∈ press.tokens?, ∀ token ∈ tokens, token.writable = true) ∧
        ∀ program ∈ press.program?, ∀ line ∈ program, line.outline.writable = true) ∧
    ∀ most, limit ≤ most → initial.after most history = window := by
  intro presses window
  refine ⟨shows_after limit history, ?_, ?_, fun press _ => Press.writable, fun most enough =>
    after_limit enough stops⟩
  · rintro earlier answers later rfl before press shown
    have isShown : shown = _ :=
      congrArg (fun ran => (ran.1, Response.mk ran.2 none)) (run_eq before answers limit)
    refine ⟨?_, ?_, ?_⟩
    · simp only [presses, presses_append, Window.presses]
      simp [press?, press, before]
    · rw [isShown]
    · rw [isShown]
      exact press.errors_dialogs limit
  · intro before
    refine ⟨rfl, fun bytes error undecoded => ?_⟩
    rw [act_load, Action.opened?, Source.ofBytes, undecoded]
    rfl

/-- A program is run, and then another text is run that cannot be read. The tokens are those of
the second text, the rest is that of the first. -/
theorem after_shows_latest_mixed :
    let history : List Action :=
      [.edit "1 PRINT 7", .run [], .load (some [0x32, 0x20, 0x28]), .run []]
    let window := initial.after 9 history
    window.tokens = "Token(NUMBER, 2, linha=1, coluna=0)\nToken(LPAREN, (, linha=1, coluna=2)\n" ++
        "Token(EOF, $, linha=1, coluna=3)\n" ∧
      window.ast = "('LINE', 1, [('PRINT', [('NUMBER', 7)])])\n" ∧ window.output = "7\n" := by
  intro history window
  have stops : Stops 9 (initial.presses 9 history) := by decide +kernel
  obtain ⟨shown, -⟩ := after_shows_latest stops
  exact ⟨shown.tokens.trans (by decide +kernel), shown.ast.trans (by decide +kernel),
    shown.output.trans (by decide +kernel)⟩

/-! ## The text that is run -/

/-- Two texts that differ at most by the blanks around them. -/
def SameTrimmed (left right : String) : Prop := Text.trim left.toList = Text.trim right.toList

/-- An action takes over a text to be run: it opens that text, or it runs the text of the area
while none is held. -/
def Takes (window : Window) (limit : Nat) (action : Action) : Prop :=
  let taken := (window.act limit action).1
  taken.held ≠ "" ∧
    (action.opened? = some taken.held ∨ window.held = "" ∧ ∃ answers, action = .run answers)

/-- A file that is opened fills the held text and the area, and nothing else. -/
theorem act_opened {action : Action} {source : String} (opened : action.opened? = some source) :
    (window.act limit action).1 = { window with held := source, code := source } := by
  cases action with
  | edit text => cases opened
  | load file =>
    rw [act_load, opened]
    rfl
  | run answers => cases opened

/-- A run holds the text that it has run. -/
theorem act_run_held (answers : List (Option String)) :
    (window.act limit (.run answers)).1.held = window.toRun := by
  change (window.run answers limit).1.held = _
  rw [run_eq]

/-- A run leaves the text of the area. -/
theorem act_run_code (answers : List (Option String)) :
    (window.act limit (.run answers)).1.code = window.code := by
  change (window.run answers limit).1.code = _
  rw [run_eq]

/-- While no text is held, a run executes what the area shows. -/
theorem sameTrimmed_toRun (free : window.held = "") : SameTrimmed window.toRun window.code := by
  rw [SameTrimmed, toRun, if_pos free, String.toList_ofList, Text.trim_trim]

/-- A text that is taken over is the one that the area shows. -/
theorem Takes.sameTrimmed {action : Action} (takes : window.Takes limit action) :
    SameTrimmed (window.act limit action).1.held (window.act limit action).1.code := by
  obtain ⟨-, opened | ⟨free, answers, rfl⟩⟩ := takes
  · rw [act_opened opened]
    rfl
  · rw [act_run_held, act_run_code]
    exact sameTrimmed_toRun free

/-- A text that is held stays so until one is opened. -/
theorem act_held {action : Action} (filled : window.held ≠ "") (unopened : action.opened? = none) :
    (window.act limit action).1.held = window.held := by
  cases action with
  | edit text => rfl
  | load file =>
    rw [act_load, unopened]
    rfl
  | run answers =>
    rw [act_run_held]
    exact if_neg filled

/-- So it does through any actions that open none. -/
theorem after_held (filled : window.held ≠ "")
    (unopened : ∀ action ∈ history, action.opened? = none) :
    (window.after limit history).held = window.held := by
  induction history generalizing window with
  | nil => rfl
  | cons action rest inductionHypothesis =>
    obtain ⟨first, others⟩ := List.forall_mem_cons.mp unopened
    have kept : (window.act limit action).1.held = window.held := act_held filled first
    exact (inductionHypothesis (by rwa [kept]) others).trans kept

/-- The area stays as it is until a text is opened or typed. -/
theorem after_code (unopened : ∀ action ∈ history, action.opened? = none)
    (unedited : ∀ text, .edit text ∉ history) :
    (window.after limit history).code = window.code := by
  induction history generalizing window with
  | nil => rfl
  | cons action rest inductionHypothesis =>
    obtain ⟨first, others⟩ := List.forall_mem_cons.mp unopened
    have kept : (window.act limit action).1.code = window.code := by
      cases action with
      | edit text => exact absurd List.mem_cons_self (unedited text)
      | load file =>
        rw [act_load, first]
        rfl
      | run answers => exact act_run_code answers
    exact (inductionHypothesis others fun text member => unedited text (.tail _ member)).trans kept

/-- If a text is held, then some action has taken it over, and none has opened another since. -/
theorem held_taken (limit : Nat) (history : List Action) :
    (initial.after limit history).held = "" ∨
      ∃ earlier taking later, history = earlier ++ taking :: later ∧
        (initial.after limit earlier).Takes limit taking ∧
        ∀ action ∈ later, action.opened? = none := by
  induction history using List.reverseRecOn with
  | nil => exact .inl rfl
  | append_singleton history action inductionHypothesis =>
    rw [after_append, after_singleton]
    generalize isWindow : initial.after limit history = window at inductionHypothesis
    by_cases nothing : (window.act limit action).1.held = ""
    · exact .inl nothing
    refine .inr ?_
    by_cases takes : window.Takes limit action
    · exact ⟨history, action, [], rfl, isWindow ▸ takes, by simp⟩
    -- What is held now was held before, so the action that took it over is an earlier one.
    have unopened : action.opened? = none := by
      cases opened : action.opened? with
      | none => rfl
      | some source =>
        refine absurd ⟨nothing, .inl ?_⟩ takes
        rw [opened, act_opened opened]
    rcases inductionHypothesis with free | ⟨earlier, taking, later, rfl, takes, others⟩
    · cases action with
      | edit text => exact absurd free nothing
      | load file =>
        rw [act_load, unopened] at nothing
        exact absurd free nothing
      | run answers => exact absurd ⟨nothing, .inr ⟨free, answers, rfl⟩⟩ takes
    · refine ⟨earlier, taking, later ++ [action], by simp, takes, ?_⟩
      exact List.forall_mem_append.mpr ⟨others, List.forall_mem_singleton.mpr unopened⟩

/-- The text that a run executes is not always the one that is shown. As long as none is held, it
is that of the area. Otherwise it is the text that the area showed when it was taken over, by
opening a file or by a run while none was held. So the run executes what is shown exactly if the
area shows the same text now as it did then, which it does unless it has been edited.

By induction over the actions, the last of them first, either no text is held or there is an action
that took over the text that is. What comes behind that action opens no file, and so leaves the held
text alone. -/
theorem toRun_taken (limit : Nat) (history : List Action) :
    let window := initial.after limit history
    window.held = "" ∧ SameTrimmed window.toRun window.code ∨
    ∃ earlier taking later, history = earlier ++ taking :: later ∧
      let before := initial.after limit earlier
      let taken := (before.act limit taking).1
      before.Takes limit taking ∧ (∀ action ∈ later, action.opened? = none) ∧
      SameTrimmed taken.held taken.code ∧ window.toRun = taken.held ∧
      (SameTrimmed window.toRun window.code ↔ SameTrimmed taken.code window.code) ∧
      ((∀ text, .edit text ∉ later) → window.code = taken.code) := by
  intro window
  rcases held_taken limit history with free | ⟨earlier, taking, later, isHistory, takes, unopened⟩
  · exact .inl ⟨free, sameTrimmed_toRun free⟩
  · refine .inr ⟨earlier, taking, later, isHistory, takes, unopened, takes.sameTrimmed, ?_⟩
    let taken := ((initial.after limit earlier).act limit taking).1
    have isWindow : window = taken.after limit later := by
      change initial.after limit history = _
      rw [isHistory, after_append]
      rfl
    have held : window.held = taken.held := by
      rw [isWindow]
      exact after_held takes.1 unopened
    have text : window.toRun = taken.held := by
      rw [toRun, held]
      exact if_neg takes.1
    have same : SameTrimmed taken.held taken.code := takes.sameTrimmed
    refine ⟨text, ?_, fun unedited => ?_⟩
    · rw [text, SameTrimmed, same, SameTrimmed]
    · rw [isWindow]
      exact after_code unopened unedited

/-- A program is typed and run, and another one is typed. The next run executes the first. -/
theorem toRun_stale :
    let window := initial.after 9 [.edit "10 PRINT 1", .run [], .edit "10 PRINT 2"]
    window.code = "10 PRINT 2" ∧ window.toRun = "10 PRINT 1" ∧
      ¬ SameTrimmed window.toRun window.code ∧ (window.run [] 9).1.output = "1\n" := by
  unfold SameTrimmed
  decide +kernel

end Histories

end LineBasic.Window
