import LineBasic.Proofs.GrammarSoundness

/-!
# Reading keeps to its line

From the number of a line to its last statement, reading never passes the end of the line or
of the file. All tokens that it looks at therefore stand on one source line, and an error names
that line, be it the line of the token at hand, of the variable in front of a missing sign, or
of the number that began the line.

This is a property of steps in sequence. What may be passed is decided by the kind of the
current token, and neither end is of a kind that any statement contains.
-/

namespace LineBasic.Program

open Reading

variable {α β : Type} {line : Value}

/-- A kind that neither ends a line nor the file. -/
def Inner (kind : Token.Kind) : Prop := kind ≠ .newline ∧ kind ≠ .endOfFile

/-- No token ends a line or the file. -/
def OneLine (tokens : List Token) : Prop := ∀ token ∈ tokens, Inner token.kind

/-- The tokens that can be reached without passing the end of a line or of the file all stand
on the line. -/
def OnLine (line : Value) (cursor : Cursor) : Prop :=
  ∀ {tokens after}, cursor.Passes tokens after → OneLine tokens → after.current.line = line

namespace OneLine

/-- No tokens are on one line. -/
theorem nil : OneLine [] := by simp [OneLine]

/-- A token within the line may stand in front. -/
theorem cons {token : Token} {tokens : List Token} (inner : Inner token.kind)
    (rest : OneLine tokens) : OneLine (token :: tokens) :=
  List.forall_mem_cons.mpr ⟨inner, rest⟩

/-- Two parts on one line are so together. -/
theorem append {first second : List Token} (start : OneLine first) (finish : OneLine second) :
    OneLine (first ++ second) :=
  List.forall_mem_append.mpr ⟨start, finish⟩

end OneLine

/-- The current token stands on the line. -/
theorem OnLine.current {cursor : Cursor} (onLine : OnLine line cursor) :
    cursor.current.line = line :=
  onLine (.refl cursor) .nil

/-- Past tokens of the line one is still on it. -/
theorem OnLine.passes {before after : Cursor} {tokens : List Token} (onLine : OnLine line before)
    (passes : before.Passes tokens after) (oneLine : OneLine tokens) : OnLine line after :=
  fun further alsoOneLine => onLine (passes.trans further) (oneLine.append alsoOneLine)

/-- At the cursor the step passes neither end, and if it fails it names the line. -/
def KeepsAt (line : Value) (reading : Reading α) (cursor : Cursor) : Prop :=
  ∃ tokens, cursor.Passes tokens (reading cursor).2 ∧ OneLine tokens ∧
    ∀ error, (reading cursor).1 = .error error → error.line = line

/-- The step keeps to the line wherever it begins on it. -/
def Keeps (line : Value) (reading : Reading α) : Prop :=
  ∀ cursor, OnLine line cursor → KeepsAt line reading cursor

/-- A step that does the same at the cursor keeps to the line as well. -/
theorem KeepsAt.congr {reading same : Reading α} {cursor : Cursor}
    (equal : reading cursor = same cursor) (keeps : KeepsAt line same cursor) :
    KeepsAt line reading cursor := by
  rw [KeepsAt, equal]
  exact keeps

/-- A step and the next one keep to the line if both do. -/
theorem KeepsAt.bind {first : Reading α} {next : α → Reading β} {cursor : Cursor}
    (start : KeepsAt line first cursor) (onLine : OnLine line cursor)
    (finish : ∀ value, Keeps line (next value)) : KeepsAt line (first >>= next) cursor := by
  obtain ⟨tokens, passes, oneLine, names⟩ := start
  cases outcome : first cursor with
  | mk found between =>
    rw [outcome] at passes names
    cases found with
    | error error =>
      rw [KeepsAt, bind_error outcome]
      refine ⟨tokens, passes, oneLine, ?_⟩
      rintro _ ⟨⟩
      exact names error rfl
    | ok value =>
      rw [KeepsAt, bind_ok outcome]
      obtain ⟨others, passesOn, alsoOneLine, namesOn⟩ :=
        finish value between (onLine.passes passes oneLine)
      exact ⟨tokens ++ others, passes.trans passesOn, oneLine.append alsoOneLine, namesOn⟩

/-- A token that ends neither the line nor the file is passed, and then a step that keeps to the
line follows. -/
theorem KeepsAt.past {reading same : Reading α} {cursor : Cursor}
    (inner : Inner cursor.current.kind) (onLine : OnLine line cursor)
    (equal : reading cursor = same cursor.advance) (keeps : Keeps line same) :
    KeepsAt line reading cursor := by
  have passes : cursor.Passes [cursor.current] cursor.advance := .one inner.2
  have oneLine : OneLine [cursor.current] := OneLine.nil.cons inner
  obtain ⟨tokens, passesOn, alsoOneLine, names⟩ := keeps _ (onLine.passes passes oneLine)
  rw [KeepsAt, equal]
  exact ⟨_, passes.trans passesOn, oneLine.append alsoOneLine, names⟩

/-- A token that ends neither the line nor the file gives its value. -/
theorem KeepsAt.take {cursor : Cursor} (inner : Inner cursor.current.kind) :
    KeepsAt line Reading.take cursor :=
  ⟨[cursor.current], .one inner.2, OneLine.nil.cons inner, fun _ failed => by cases failed⟩

/-- The line that is named apart from the token at hand, if any, is the given one. -/
def Expectation.Names (line : Value) : Expectation → Prop
  | .lineEnd opened => opened = line
  | .equalsSign variableLine => variableLine = line
  | _ => True

/-- A failure at the current token names its line, or the one that it remembers. -/
theorem KeepsAt.expected {expectation : Expectation} {cursor : Cursor}
    (names : expectation.Names line) (onLine : OnLine line cursor) :
    KeepsAt line (Reading.expected expectation : Reading α) cursor := by
  refine ⟨[], .refl cursor, .nil, ?_⟩
  rintro _ ⟨⟩
  cases expectation with
  | lineEnd opened => exact names
  | equalsSign variableLine => exact names
  | _ => exact onLine.current

namespace Keeps

/-- A step that leaves the cursor alone and succeeds keeps to the line. -/
theorem still {reading : Reading α} (result : Cursor → α)
    (stays : ∀ cursor, reading cursor = (.ok (result cursor), cursor)) : Keeps line reading := by
  intro cursor _
  rw [KeepsAt, stays cursor]
  exact ⟨[], .refl cursor, .nil, fun _ failed => by cases failed⟩

/-- To give a value keeps to the line. -/
theorem pure (value : α) : Keeps line (Pure.pure value) := still (fun _ => value) fun _ => rfl

/-- To look at the tokens left keeps to the line. -/
theorem remaining : Keeps line Reading.remaining := still Cursor.rest fun _ => rfl

/-- Steps in sequence keep to the line if each does. -/
theorem bind {first : Reading α} {next : α → Reading β} (start : Keeps line first)
    (finish : ∀ value, Keeps line (next value)) : Keeps line (first >>= next) :=
  fun cursor onLine => (start cursor onLine).bind onLine finish

/-- What a step does with the current token may use that it stands on the line. -/
theorem current {next : Token → Reading β}
    (finish : ∀ token : Token, token.line = line → Keeps line (next token)) :
    Keeps line (Reading.current >>= next) :=
  fun cursor onLine => .congr (current_bind next cursor) (finish _ onLine.current cursor onLine)

end Keeps

/-! ## Expressions -/

section Chains

variable {operator? : Token.Kind → Option ArithOp} {operand : Reading Expr}

/-- Joining operands keeps to the line if reading each does. -/
theorem chainFrom_keeps (inner : ∀ {kind op}, operator? kind = some op → Inner kind)
    (keeps : Keeps line operand) (bound : List Token) (left : Expr) :
    Keeps line (chainFrom operator? operand bound left) := by
  induction bound generalizing left with
  | nil => exact .pure left
  | cons token bound inductionHypothesis =>
    intro cursor onLine
    cases follows : operator? cursor.current.kind with
    | none => exact .congr (chainFrom_stop follows _ left) (Keeps.pure left cursor onLine)
    | some op =>
      apply KeepsAt.past (inner follows) onLine (chainFrom_operator follows token bound left)
      exact keeps.bind fun right => inductionHypothesis (.binary op left right)

/-- A chain keeps to the line if its operands do. -/
theorem chain_keeps (inner : ∀ {kind op}, operator? kind = some op → Inner kind)
    (keeps : Keeps line operand) : Keeps line (chain operator? operand) :=
  keeps.bind fun first => Keeps.remaining.bind fun bound => chainFrom_keeps inner keeps bound first

end Chains

/-- An expression keeps to the line if its factors do. -/
theorem exprOf_keeps {factor : Reading Expr} (keeps : Keeps line factor) :
    Keeps line (exprOf factor) := by
  apply chain_keeps
  · intro kind op found
    rw [(Grammar.sumOperator?_eq_some found).1]
    simp [Inner]
  · apply chain_keeps _ keeps
    intro kind op found
    rw [(Grammar.productOperator?_eq_some found).1]
    simp [Inner]

/-- A factor keeps to the line if what stands in parentheses does. -/
theorem factorOf_keeps {inside : Reading Expr} (keeps : Keeps line inside) :
    Keeps line (factorOf inside) := by
  intro cursor onLine
  apply KeepsAt.congr (kind_bind _ cursor)
  split
  · next isNumber =>
    exact (KeepsAt.take (by simp [isNumber, Inner])).bind onLine fun _ => .pure _
  · next isName => exact (KeepsAt.take (by simp [isName, Inner])).bind onLine fun _ => .pure _
  · next isOpening =>
    apply KeepsAt.past (by simp [isOpening, Inner]) onLine (advance_bind _ cursor)
    apply keeps.bind
    intro inner cursor onLine
    apply KeepsAt.congr (kind_bind _ cursor)
    split
    · next isClosing =>
      exact .past (by simp [isClosing, Inner]) onLine (advance_bind _ cursor) (.pure inner)
    · exact .expected trivial onLine
  · exact .expected trivial onLine

/-- A factor under any bound keeps to the line. -/
theorem factorWithin_keeps (bound : List Token) : Keeps line (factorWithin bound) := by
  induction bound with
  | nil => exact factorOf_keeps fun _ onLine => .expected trivial onLine
  | cons token bound inductionHypothesis => exact factorOf_keeps (exprOf_keeps inductionHypothesis)

/-- Reading an expression keeps to the line. -/
theorem expr_keeps : Keeps line expr :=
  exprOf_keeps (Keeps.remaining.bind factorWithin_keeps)

/-! ## Statements -/

section Items

variable {separator : Token.Kind} {item : Reading α}

/-- Further items keep to the line if each does. -/
theorem itemsFrom_keeps (inner : Inner separator) (keeps : Keeps line item) (bound : List Token) :
    Keeps line (itemsFrom separator item bound) := by
  induction bound with
  | nil => exact .pure []
  | cons token bound inductionHypothesis =>
    intro cursor onLine
    by_cases separates : cursor.current.kind = separator
    · apply KeepsAt.past (separates ▸ inner) onLine (itemsFrom_cons token bound separates)
      exact keeps.bind fun first => inductionHypothesis.bind fun rest => .pure (first :: rest)
    · exact .congr (itemsFrom_stop _ separates) (Keeps.pure [] cursor onLine)

/-- Items with separators between them keep to the line if each does. -/
theorem items_keeps (inner : Inner separator) (keeps : Keeps line item) :
    Keeps line (items separator item) :=
  keeps.bind fun first => Keeps.remaining.bind fun bound =>
    (itemsFrom_keeps inner keeps bound).bind fun rest => .pure (first :: rest)

end Items

/-- A required token is passed, or fails on the line. -/
theorem required_keeps {wanted : Token.Kind} {expectation : Expectation} (inner : Inner wanted)
    (names : expectation.Names line) : Keeps line (required wanted expectation) := by
  intro cursor onLine
  apply KeepsAt.congr (kind_bind _ cursor)
  split
  · next found => exact .take (found ▸ inner)
  · exact .expected names onLine

/-- A comparison is passed, or fails on the line. -/
theorem comparison_keeps : Keeps line comparison := by
  intro cursor onLine
  apply KeepsAt.congr (kind_bind _ cursor)
  split
  · next found =>
    exact .past (by simp [found, Inner]) onLine (advance_bind _ cursor) (.pure _)
  · exact .expected trivial onLine

/-- An item to print keeps to the line. -/
theorem printItem_keeps : Keeps line printItem := by
  intro cursor onLine
  apply KeepsAt.congr (kind_bind _ cursor)
  split
  · next found => exact (KeepsAt.take (by simp [found, Inner])).bind onLine fun _ => .pure _
  · exact (expr_keeps cursor onLine).bind onLine fun _ => .pure _
  · exact (expr_keeps cursor onLine).bind onLine fun _ => .pure _
  · exact (expr_keeps cursor onLine).bind onLine fun _ => .pure _
  · exact .expected trivial onLine

section FirstWord

variable {cursor : Cursor}

/-- Behind its first word, an assignment remembers the line of its variable. -/
theorem assignment_keeps (inner : Inner cursor.current.kind) (onLine : OnLine line cursor) :
    KeepsAt line assignment cursor := by
  apply KeepsAt.past inner onLine (advance_bind _ cursor)
  apply Keeps.current
  intro token sameLine
  apply Keeps.bind
  · exact required_keeps (by simp [Inner]) trivial
  intro name
  apply Keeps.bind
  · exact required_keeps (by simp [Inner]) sameLine
  intro _
  exact expr_keeps.bind fun value => .pure _

/-- Behind its first word, a print statement keeps to the line. -/
theorem print_keeps (inner : Inner cursor.current.kind) (onLine : OnLine line cursor) :
    KeepsAt line print cursor := by
  apply KeepsAt.past inner onLine (advance_bind _ cursor)
  exact (items_keeps (by simp [Inner]) printItem_keeps).bind fun _ => .pure _

/-- Behind its first word, a branch keeps to the line. -/
theorem branch_keeps (inner : Inner cursor.current.kind) (onLine : OnLine line cursor) :
    KeepsAt line branch cursor := by
  have condition : Keeps line condition :=
    expr_keeps.bind fun _ => comparison_keeps.bind fun _ => expr_keeps.bind fun _ => .pure _
  apply KeepsAt.past inner onLine (advance_bind _ cursor)
  apply condition.bind
  intro tested
  apply Keeps.bind
  · exact required_keeps (by simp [Inner]) trivial
  intro _
  apply Keeps.bind
  · exact required_keeps (by simp [Inner]) trivial
  intro target
  exact .pure _

/-- A word followed by a required token keeps to the line. -/
theorem operand_keeps {wanted : Token.Kind} {expectation : Expectation} {build : Value → Stmt}
    (inner : Inner cursor.current.kind) (onLine : OnLine line cursor) (wantedInner : Inner wanted)
    (names : expectation.Names line) :
    KeepsAt line (do advance; let value ← required wanted expectation; pure (build value))
      cursor := by
  apply KeepsAt.past inner onLine (advance_bind _ cursor)
  exact (required_keeps wantedInner names).bind fun _ => .pure _

end FirstWord

/-- Reading a statement keeps to the line. Its first word is passed once it is known. -/
theorem statement_keeps : Keeps line statement := by
  intro cursor onLine
  have number : Inner .number := by simp [Inner]
  have name : Inner .identifier := by simp [Inner]
  apply KeepsAt.congr (kind_bind _ cursor)
  split
  · next found => exact assignment_keeps (by simp [found, Inner]) onLine
  · next found => exact print_keeps (by simp [found, Inner]) onLine
  · next found => exact operand_keeps (by simp [found, Inner]) onLine name trivial
  · next found => exact branch_keeps (by simp [found, Inner]) onLine
  · next found => exact operand_keeps (by simp [found, Inner]) onLine number trivial
  · next found => exact operand_keeps (by simp [found, Inner]) onLine number trivial
  · next found => exact .past (by simp [found, Inner]) onLine (advance_bind _ cursor) (.pure _)
  · next found => exact .past (by simp [found, Inner]) onLine (advance_bind _ cursor) (.pure _)
  · next found => exact .past (by simp [found, Inner]) onLine (advance_bind _ cursor) (.pure _)
  · exact .expected trivial onLine

/-! ## Lines -/

/-- If the step fails at the cursor, it has passed neither end and names the line. -/
def FailsOn (line : Value) (reading : Reading α) (cursor : Cursor) : Prop :=
  ∀ {error after}, reading cursor = (.error error, after) →
    ∃ tokens, cursor.Passes tokens after ∧ OneLine tokens ∧ error.line = line

/-- A step that keeps to the line may come before one that fails on it. -/
theorem FailsOn.bind {first : Reading α} {next : α → Reading β} {cursor : Cursor}
    (keeps : Keeps line first) (onLine : OnLine line cursor)
    (fails : ∀ value after, OnLine line after → FailsOn line (next value) after) :
    FailsOn line (first >>= next) cursor := by
  intro error after failed
  obtain ⟨tokens, passes, oneLine, names⟩ := keeps cursor onLine
  rcases bind_eq_error_iff.mp failed with firstFailed | ⟨value, between, found, nextFailed⟩
  · rw [firstFailed] at passes names
    exact ⟨tokens, passes, oneLine, names error rfl⟩
  · rw [found] at passes
    obtain ⟨others, passesOn, alsoOneLine, same⟩ :=
      fails value between (onLine.passes passes oneLine) nextFailed
    exact ⟨tokens ++ others, passes.trans passesOn, oneLine.append alsoOneLine, same⟩

/-- Where neither the line nor the file ends, the end of a line fails. -/
theorem lineEnd_failsOn {opened : Value} (named : opened = line) (value : α) (cursor : Cursor) :
    FailsOn line (do lineEnd opened; pure value) cursor := by
  intro error after failed
  rw [lineEnd, bind_apply, kind_bind] at failed
  cases found : cursor.current.kind with
  | newline =>
    simp only [found] at failed
    cases failed
  | endOfFile =>
    simp only [found] at failed
    cases failed
  | _ =>
    simp only [found] at failed
    cases failed
    exact ⟨[], .refl cursor, .nil, named⟩

/-- A line that cannot be read fails on the source line on which it begins. -/
theorem line_failsOn {cursor : Cursor} (onLine : OnLine line cursor) :
    FailsOn line Reading.line cursor := by
  intro error after failed
  rw [Reading.line, current_bind] at failed
  apply FailsOn.bind (required_keeps _ _) onLine _ failed
  · simp [Inner]
  · trivial
  · intro number between betweenOn
    apply FailsOn.bind (items_keeps _ statement_keeps) betweenOn
    · intro body atEnd _
      exact lineEnd_failsOn onLine.current _ atEnd
    · simp [Inner]

end LineBasic.Program
