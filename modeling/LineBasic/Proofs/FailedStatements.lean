import LineBasic.Machine.Step
import LineBasic.Proofs.ReturnStack
import Mathlib.Tactic.Common

/-!
# What a failed statement leaves

A statement that stops with a fault has done nothing, with two exceptions. An input statement
has asked its question before the reply turns out to be none, and has used it up. A subroutine
call has noted where to return before it finds that its line is missing, and the note stays.
So the variables are always as they were, nothing has been printed, and the returns are as
they were after every statement but a call.

This holds for statements given as data at indexes given as data. At an index that is no
number a call fails before it notes anything.
-/

namespace LineBasic.Machine

/-- What a statement that fails at an index makes of the state it began in. -/
inductive Aftermath (program : Program) (index : Value) (before : State) : Stmt → State → Prop where
  /-- Nothing was done. -/
  | untouched {stmt : Stmt} (noCall : stmt.isCall = true → index.amount? = none) :
      Aftermath program index before stmt before
  /-- A question was asked, and a reply used up if there was one. -/
  | asked {name : Value} {shown : String} (shows : name.shown? = some shown) :
      Aftermath program index before (.input name)
        { before.emit (.prompt shown) with feed := before.feed.next.2 }
  /-- A return was noted for a line that does not exist. -/
  | noted {target : Value} {n : Int} (counts : index.amount? = some n)
      (missing : program.indexOf? target = none) :
      Aftermath program index before (.gosub target)
        { before with returns := (n + 1) :: before.returns }

/-- Every statement that fails at an index that is a number leaves one of these states. -/
theorem exec_aftermath {program : Program} {index : Value} {n : Int} {stmt : Stmt} {before : State}
    {fault : Fault} (counts : index.amount? = some n)
    (failed : (stmt.exec program n before).1 = .error fault) :
    Aftermath program index before stmt (stmt.exec program n before).2 := by
  cases stmt with
  | assign name expr =>
    rw [Stmt.exec] at failed ⊢
    cases outcome : expr.eval before.store with
    | ok value => simp [outcome] at failed
    | error cause => exact .untouched (by simp [Stmt.isCall])
  | print items =>
    rw [Stmt.exec] at failed ⊢
    cases outcome : printedLine before.store items with
    | ok text => simp [outcome] at failed
    | error cause => exact .untouched (by simp [Stmt.isCall])
  | input name =>
    rw [Stmt.exec] at failed ⊢
    cases shows : name.shown? with
    | none => exact .untouched (by simp [Stmt.isCall])
    | some shown =>
      have same : (before.emit (.prompt shown)).feed.next = before.feed.next := rfl
      rw [shows] at failed
      dsimp only at failed ⊢
      rw [same] at failed ⊢
      rcases replied : before.feed.next with ⟨reply, feed⟩
      rw [replied] at failed
      cases reply with
      | ok value => simp at failed
      | error cause =>
        have used : feed = before.feed.next.2 := by rw [replied]
        subst used
        exact .asked shows
  | branch condition target =>
    rw [Stmt.exec] at failed ⊢
    cases outcome : condition.eval before.store with
    | error cause => exact .untouched (by simp [Stmt.isCall])
    | ok holds => cases holds <;> exact .untouched (by simp [Stmt.isCall])
  | goto target => exact .untouched (by simp [Stmt.isCall])
  | gosub target =>
    rw [Stmt.exec, Program.destination] at failed
    cases missing : program.indexOf? target with
    | some position => simp [missing] at failed
    | none => exact .noted counts missing
  | ret =>
    rw [Stmt.exec] at failed ⊢
    cases noted : before.returns with
    | nil => exact .untouched (by simp [Stmt.isCall])
    | cons back rest => simp [noted] at failed
  | stop => cases failed
  | remark => cases failed
  | faulty cause => exact .untouched (by simp [Stmt.isCall])

/-- Only a call looks at the index. -/
theorem Aftermath.at_index {program : Program} {index other : Value} {stmt : Stmt}
    {before after : State} (aftermath : Aftermath program other before stmt after)
    (noCall : stmt.isCall = false) : Aftermath program index before stmt after := by
  cases aftermath with
  | untouched => exact .untouched (by simp [noCall])
  | asked shows => exact .asked shows
  | noted => cases noCall

/-- So does every statement that fails at an index given as data. -/
theorem execAt_aftermath {program : Program} {index : Value} {stmt : Stmt} {before : State}
    {fault : Fault} (failed : (stmt.execAt program index before).1 = .error fault) :
    Aftermath program index before stmt (stmt.execAt program index before).2 := by
  unfold Stmt.execAt at failed ⊢
  cases counts : index.amount? with
  | some n =>
    rw [counts] at failed
    exact exec_aftermath counts failed
  | none =>
    rw [counts] at failed
    have zero : (Value.number 0).amount? = some 0 := rfl
    cases stmt with
    | gosub target => exact .untouched fun _ => counts
    | _ => exact (exec_aftermath zero failed).at_index rfl

/-- A statement that fails leaves the variables as they were, and nothing is shown but the question
of an input statement. The returns are as they were exactly if the statement is no call at an index
that is a number. A call fails there only if its line is missing, and leaves the index behind its
own on top of the returns that it found.

There are three ways in which a failed statement can leave the state: untouched, with its question
asked, or with the return of a call noted. Each of the statements follows from these by cases. -/
theorem execAt_failed {program : Program} {index : Value} {stmt : Stmt} {before : State}
    {fault : Fault} (failed : (stmt.execAt program index before).1 = .error fault) :
    let after := (stmt.execAt program index before).2
    after.store = before.store ∧
    (after.log = before.log ∨ ∃ name shown, stmt = .input name ∧ name.shown? = some shown ∧
      after.log = .prompt shown :: before.log) ∧
    (after.returns = before.returns ↔
      ¬ ∃ target n, stmt = .gosub target ∧ index.amount? = some n) ∧
    ∀ target n, stmt = .gosub target → index.amount? = some n →
      program.indexOf? target = none ∧ after.returns = (n + 1) :: before.returns := by
  have aftermath := execAt_aftermath failed
  generalize (stmt.execAt program index before).2 = after at aftermath ⊢
  cases aftermath with
  | untouched noCall =>
    have other : ¬ ∃ target n, stmt = .gosub target ∧ index.amount? = some n := by
      rintro ⟨target, n, rfl, counts⟩
      simp [noCall rfl] at counts
    refine ⟨rfl, .inl rfl, iff_of_true rfl other, ?_⟩
    intro target n isCall counts
    exact absurd ⟨target, n, isCall, counts⟩ other
  | @asked name shown shows =>
    refine ⟨rfl, .inr ⟨name, shown, rfl, shows, rfl⟩, iff_of_true rfl (by simp), ?_⟩
    intro target n isCall
    cases isCall
  | @noted target n counts missing =>
    refine ⟨rfl, .inl rfl, iff_of_false (by simp) (by simp [counts]), ?_⟩
    rintro _ m ⟨⟩ alsoCounts
    obtain rfl : n = m := Option.some.inj (counts.symm.trans alsoCounts)
    exact ⟨missing, rfl⟩

/-- A division by zero in the last of three items prints none of them, and a reply that is no
number has been asked for. -/
theorem execAt_failed_halfway :
    let feed : Feed := ⟨[.error (.notAnInteger ['x'])], .endOfInput⟩
    let before : State := ⟨.empty, [4], feed, []⟩
    let quotient : Expr := .binary .dividedBy (.constant (.number 1)) (.var (.text "A"))
    let print : Stmt := .print [.text (.text "a"), .value (.var (.text "A")), .value quotient]
    let input : Stmt := .input (.text "A")
    ((print.execAt [] (.number 0) before).1 = .error .divisionByZero ∧
      (print.execAt [] (.number 0) before).2.log = []) ∧
    ((input.execAt [] (.number 0) before).1 = .error (.notAnInteger ['x']) ∧
      (input.execAt [] (.number 0) before).2.store = .empty ∧
      (input.execAt [] (.number 0) before).2.returns = [4] ∧
      (input.execAt [] (.number 0) before).2.log = [.prompt "A"]) := by
  intro feed before quotient print input
  have divided : (print.execAt [] (.number 0) before).1 = .error .divisionByZero := by
    decide +kernel
  have refused : (input.execAt [] (.number 0) before).1 = .error (.notAnInteger ['x']) := rfl
  obtain ⟨-, silent, -⟩ := execAt_failed divided
  obtain ⟨store, -, returns, -⟩ := execAt_failed refused
  refine ⟨⟨divided, silent.resolve_right ?_⟩, refused, store, returns.mpr ?_, by decide⟩
  · simp [print]
  · simp [input]

/-- A call of a line that does not exist fails, and yet leaves a return. -/
theorem execAt_failed_call :
    let program : Program := [⟨.number 10, [.gosub (.number 99)]⟩]
    let before := State.initial ⟨[], .endOfInput⟩
    let outcome := (Stmt.gosub (.number 99)).execAt program (.number 0) before
    outcome.1 = .error (.missingLine (.number 99) .gosub) ∧ before.returns = [] ∧
      outcome.2.returns = [1] := by
  decide +kernel

end LineBasic.Machine
