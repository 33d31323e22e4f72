import LineBasic.Proofs.DecimalDigits
import LineBasic.Proofs.InputLines
import LineBasic.Proofs.WindowRuns

/-!
# Printed numbers are read back

A number is printed unless it has too many digits. What is printed is a line that gives the number
back wherever a text is read: as a line of input on a console, as an answer in the window and, if
there is no minus in front of it, as a number in a source text.
-/

namespace LineBasic

open Machine Text

/-! ## Printing -/

namespace Machine

variable {expr : Expr} {store : Store} {n : Int}

/-- A number is printed as it is written, unless it has more digits than the limit. -/
theorem printedLine_number (value : expr.eval store = .ok (.number n)) :
    printedLine store [.value expr] =
      if (Nat.toDigits 10 n.natAbs).length ≤ Numeral.digitLimit then .ok (Numeral.write n)
      else .error .numeralTooLong := by
  have shown : (Value.number n).shown? =
      if (Nat.toDigits 10 n.natAbs).length ≤ Numeral.digitLimit then some (Numeral.write n)
      else none := by
    simp only [Value.shown?, Value.writable, decide_eq_true_eq, Numeral.lt_writeBound_iff]
    rfl
  by_cases few : (Nat.toDigits 10 n.natAbs).length ≤ Numeral.digitLimit
  · rw [if_pos few] at shown ⊢
    have content : PrintItem.content store (.value expr) = .ok (.text (Numeral.write n)) := by
      simp only [PrintItem.content, value, bind, Except.bind, shown]
    rw [printedLine, List.mapM_cons, content]
    simp [bind, Except.bind, pure, Except.pure, texts, Except.map]
  · rw [if_neg few] at shown ⊢
    have content : PrintItem.content store (.value expr) = .error .numeralTooLong := by
      simp only [PrintItem.content, value, bind, Except.bind, shown]
    rw [printedLine, List.mapM_cons, content]
    rfl

/-! ## Input -/

/-- An input statement that is given the feed stores the number in its variable and leaves the rest
of the feed. Besides, it asks for the variable and changes nothing. -/
def Feed.Supplies (feed : Feed) (n : Int) (rest : Feed) : Prop :=
  ∀ (program : Program) (index : Int) (state : State) (name : String),
    (Stmt.input (.text name)).exec program index { state with feed } =
      (.ok none,
        { state with
          store := state.store.set (.text name) (.number n)
          feed := rest
          log := .prompt name :: state.log })

namespace Feed

/-- A reply that is an integer is the number that is stored. -/
theorem Supplies.of_reply (replies : List (Except Fault Int)) (atEnd : Fault) :
    Supplies ⟨.ok n :: replies, atEnd⟩ n ⟨replies, atEnd⟩ := by
  intro program index state name
  rw [Stmt.exec, Value.shown?_text]
  rfl

/-- So is an answer that is an integer. -/
theorem Supplies.of_answer {given : Option String} (answered : Window.answer given = .ok n)
    (answers : List (Option String)) :
    (Window.feed (given :: answers)).Supplies n (Window.feed answers) := by
  rw [Window.feed, List.map_cons, answered]
  exact .of_reply _ _

section Lines

variable {line : String} (accepted : Numeral.read line.toList = .ok n)

include accepted

/-- A line that is read as an integer is not empty, and is a reply of that integer. -/
theorem reply_of_read : line ≠ "" ∧ reply line.toList = .ok n := by
  constructor
  · rintro rfl
    cases accepted
  · rw [reply, accepted]
    rfl

/-- A line of a console that is read as an integer supplies it, and the other lines are left. -/
theorem supplies_line (unbroken : '\n' ∉ line.toList ∧ '\r' ∉ line.toList) (rest : String) :
    (ofText (line ++ "\n" ++ rest)).Supplies n (ofText rest) := by
  obtain ⟨filled, replied⟩ := reply_of_read accepted
  have written : OnePerLine [line] (line ++ "\n") := .inl (by simp)
  have alone := ofText_onePerLine written (by simpa using filled) (by simpa using unbroken)
  have ended : Ended (line ++ "\n").toList := .inr (by simp)
  rw [ofText_append ended, alone, List.map_singleton, replied]
  exact .of_reply _ _

/-- So does the last line, if it has no end. -/
theorem supplies_lastLine (unbroken : '\n' ∉ line.toList ∧ '\r' ∉ line.toList) :
    (ofText line).Supplies n (ofText "") := by
  obtain ⟨filled, replied⟩ := reply_of_read accepted
  have written : OnePerLine [line] line := .inr ⟨[], line, rfl, by simp⟩
  rw [ofText_onePerLine written (by simpa using filled) (by simpa using unbroken),
    List.map_singleton, replied]
  exact .of_reply _ _

/-- An answer in the window that is read as an integer supplies it, and the other answers are
left. -/
theorem supplies_answer (answers : List (Option String)) :
    (Window.feed (some line :: answers)).Supplies n (Window.feed answers) := by
  apply Supplies.of_answer
  rw [Window.answer_eq_reply accepted, (reply_of_read accepted).2]

end Lines

end Feed

end Machine

/-! ## Source text -/

namespace Token

/-- The digits of a number are cut off as one token that holds it, unless a digit follows them. -/
theorem scanFrom_toDigits {n : Nat} (few : (Nat.toDigits 10 n).length ≤ Numeral.digitLimit)
    {rest : List Char} (ends : Front (fun c => isDigit c = false) rest) (source : List Char)
    (offset line : Nat) :
    scanFrom source 0 (Nat.toDigits 10 n ++ rest) offset line =
      (scanFrom source 0 rest (offset + (Nat.toDigits 10 n).length) line).map
        (⟨.number, .number n, .number line, .number offset⟩ :: ·) := by
  obtain ⟨spelled, holds⟩ := spelled_toDigits n
  have cons : (Lexeme.number (Numeral.digitsOf n)).consToken line offset =
      (⟨.number, .number n, .number line, .number offset⟩ :: ·) := by
    funext tokens
    rw [Lexeme.consToken, holds]
  rw [scanFrom_lexeme source _ _ offset line (lexeme?_of_spelled spelled ends)
    (excess?_toDigits few), spelled.length_eq, List.drop_left, cons]
  rfl

end Token

/-- Printing a number fails exactly if it has more than 4300 digits, with the fault for that. If it
succeeds, the line that it prints gives the number back: as a line of input, with others behind it
or as the last, as an answer in the window, and if the number is not negative as one token of a
source text wherever no digit follows.

The written form of a number has a sign at most and the digits of its size. Reading it as an integer
gives the number back, as long as there are not too many digits; and none of its characters is a
blank or a break, so that a line or an answer holds all of it. Without a sign it is the longest run
of digits at the front, hence one token. -/
theorem printed_number_readable {expr : Expr} {state : State} {v : Int} (program : Program)
    (index : Int) (value : expr.eval state.store = .ok (.number v)) :
    let printed := (Stmt.print [.value expr]).exec program index state
    (∀ fault, printed.1 = .error fault ↔
      fault = .numeralTooLong ∧ 4300 < (Nat.toDigits 10 v.natAbs).length) ∧
    ∀ next, printed.1 = .ok next →
      ∃ text, printed.2 = state.emit (.line text) ∧
        (∀ rest, (Feed.ofText (text ++ "\n" ++ rest)).Supplies v (.ofText rest)) ∧
        (Feed.ofText text).Supplies v (.ofText "") ∧
        (∀ answers, (Window.feed (some text :: answers)).Supplies v (Window.feed answers)) ∧
        (0 ≤ v → ∀ source rest offset line, Token.Front (fun c => isDigit c = false) rest →
          Token.scanFrom source 0 (text.toList ++ rest) offset line =
            (Token.scanFrom source 0 rest (offset + text.length) line).map
              (⟨.number, .number v, .number line, .number offset⟩ :: ·)) := by
  intro printed
  by_cases few : (Nat.toDigits 10 v.natAbs).length ≤ Numeral.digitLimit
  · have succeeded : printed = (.ok none, state.emit (.line (Numeral.write v))) := by
      simp only [printed, Stmt.exec, printedLine_number value, if_pos few]
    have accepted := Numeral.read_write few
    have unbroken : '\n' ∉ (Numeral.write v).toList ∧ '\r' ∉ (Numeral.write v).toList :=
      ⟨fun member => absurd (Numeral.isBlank_write member) (by decide),
        fun member => absurd (Numeral.isBlank_write member) (by decide)⟩
    rw [succeeded]
    constructor
    · intro fault
      constructor
      · rintro ⟨⟩
      · rintro ⟨-, many⟩
        exact absurd few (Nat.not_le.mpr many)
    · intro next _
      refine ⟨Numeral.write v, rfl, Feed.supplies_line accepted unbroken,
        Feed.supplies_lastLine accepted unbroken, Feed.supplies_answer accepted, ?_⟩
      intro natural source rest offset line ends
      obtain ⟨n, rfl⟩ := Int.eq_ofNat_of_zero_le natural
      rw [← String.length_toList, Numeral.write_natCast]
      exact Token.scanFrom_toDigits few ends source offset line
  · have failed : printed = (.error .numeralTooLong, state) := by
      simp only [printed, Stmt.exec, printedLine_number value, if_neg few]
    rw [failed]
    constructor
    · intro fault
      constructor
      · rintro ⟨⟩
        exact ⟨rfl, Nat.not_le.mp few⟩
      · rintro ⟨rfl, -⟩
        rfl
    · rintro next ⟨⟩

/-- A difference below zero is printed with its minus, and given back with it. -/
theorem printed_number_readable_difference :
    let difference : Expr := .binary .minus (.constant (.number 3)) (.constant (.number 10))
    let state := State.initial (.ofText "")
    difference.eval state.store = .ok (.number (-7)) ∧
      (Feed.ofText "-7\n12").Supplies (-7) (.ofText "12") ∧
      (Window.feed [some "-7", none]).Supplies (-7) (Window.feed [none]) := by
  intro difference state
  have value : difference.eval state.store = .ok (.number (-7)) := by decide
  have line : printedLine state.store [.value difference] = .ok "-7" := by decide +kernel
  obtain ⟨text, isText, console, -, window, -⟩ :=
    (printed_number_readable [] 0 value).2 none (by simp only [Stmt.exec, line])
  simp only [Stmt.exec, line] at isText
  have log := congrArg State.log isText
  obtain rfl : "-7" = text := by simpa [State.emit] using log
  exact ⟨value, console "12", window [none]⟩

end LineBasic
