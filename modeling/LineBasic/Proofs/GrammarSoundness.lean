import LineBasic.Proofs.Grammar
import LineBasic.Proofs.ReadingLoops

/-!
# What is read is written by the tokens passed

Every reading step that succeeds has passed tokens that write its value in the grammar.
The statements follow the definitions of the steps: a loop of any bound is followed by
induction on the bound, and the accumulated left side of a chain is carried together
with the tokens that wrote it.

At the level of programs a bound that is long enough matters, since a loop cut off by
its bound would leave tokens behind.
-/

namespace LineBasic.Program

open Reading

namespace Grammar

/-- A step that succeeds has passed tokens that write its value. -/
def Sound {α : Type} (reading : Reading α) (Writes : List Token → α → Prop) : Prop :=
  ∀ {before after : Cursor} {value : α}, reading before = (.ok value, after) →
    ∃ tokens, before.Passes tokens after ∧ Writes tokens value

/-! ## Expressions -/

/-- The operators of sums are addition and subtraction. -/
theorem sumOperator?_eq_some {kind : Token.Kind} {op : ArithOp}
    (found : sumOperator? kind = some op) :
    kind = .arith op ∧ (op = .plus ∨ op = .minus) := by
  cases kind with
  | arith which => cases which <;> simp_all [sumOperator?, eq_comm]
  | _ => cases found

/-- The operators of products are multiplication and division. -/
theorem productOperator?_eq_some {kind : Token.Kind} {op : ArithOp}
    (found : productOperator? kind = some op) :
    kind = .arith op ∧ (op = .times ∨ op = .dividedBy) := by
  cases kind with
  | arith which => cases which <;> simp_all [productOperator?, eq_comm]
  | _ => cases found

section Chains

variable {operator? : Token.Kind → Option ArithOp} {operand : Reading Expr}
  {Operand Chain : List Token → Expr → Prop}

/-- Operands joined to a chain make a chain. The tokens of the chain so far stand before
the cursor, and the induction is on the bound of the loop. -/
theorem chainFrom_sound (sound : Sound operand Operand) (stops : operator? .endOfFile = none)
    (joins : ∀ {first second sign op left right}, Chain first left →
      operator? sign.kind = some op → Operand second right →
      Chain (first ++ sign :: second) (.binary op left right))
    {bound : List Token} {left value : Expr} {start before after : Cursor} {tokens : List Token}
    (passed : start.Passes tokens before) (written : Chain tokens left)
    (succeeded : chainFrom operator? operand bound left before = (.ok value, after)) :
    ∃ tokens, start.Passes tokens after ∧ Chain tokens value := by
  induction bound generalizing left before tokens with
  | nil =>
    cases succeeded
    exact ⟨tokens, passed, written⟩
  | cons token bound inductionHypothesis =>
    cases follows : operator? before.current.kind with
    | none =>
      rw [chainFrom_stop follows] at succeeded
      cases succeeded
      exact ⟨tokens, passed, written⟩
    | some op =>
      have inside : before.current.kind ≠ .endOfFile := by
        intro finished
        rw [finished, stops] at follows
        cases follows
      rw [chainFrom_operator follows] at succeeded
      obtain ⟨right, between, found, continued⟩ := bind_eq_ok_iff.mp succeeded
      obtain ⟨others, passedOn, operandWritten⟩ := sound found
      exact inductionHypothesis (passed.trans (passedOn.cons inside))
        (joins written follows operandWritten) continued

/-- A chain is sound if its operands are. -/
theorem chain_sound (sound : Sound operand Operand) (stops : operator? .endOfFile = none)
    (starts : ∀ {tokens value}, Operand tokens value → Chain tokens value)
    (joins : ∀ {first second sign op left right}, Chain first left →
      operator? sign.kind = some op → Operand second right →
      Chain (first ++ sign :: second) (.binary op left right)) :
    Sound (chain operator? operand) Chain := by
  intro before after value succeeded
  obtain ⟨first, between, found, continued⟩ := bind_eq_ok_iff.mp succeeded
  obtain ⟨tokens, passed, written⟩ := sound found
  exact chainFrom_sound sound stops joins passed (starts written) continued

end Chains

/-- Factors make terms. -/
theorem termOf_sound {factor : Reading Expr} (sound : Sound factor (Expression .factor)) :
    Sound (termOf factor) (Expression .term) :=
  chain_sound sound rfl .factor fun chain follows last =>
    have ⟨signed, multiplies⟩ := productOperator?_eq_some follows
    .product chain signed multiplies last

/-- Factors make expressions. -/
theorem exprOf_sound {factor : Reading Expr} (sound : Sound factor (Expression .factor)) :
    Sound (exprOf factor) (Expression .expr) :=
  chain_sound (termOf_sound sound) rfl .term fun chain follows last =>
    have ⟨signed, adds⟩ := sumOperator?_eq_some follows
    .sum chain signed adds last

/-- A factor is sound if what stands in parentheses is. -/
theorem factorOf_sound {inside : Reading Expr} (sound : Sound inside (Expression .expr)) :
    Sound (factorOf inside) (Expression .factor) := by
  intro before after value succeeded
  rw [factorOf, kind_bind] at succeeded
  cases found : before.current.kind with
  | number =>
    simp only [found] at succeeded
    cases succeeded
    exact ⟨_, .one (by simp [found]), .number found⟩
  | identifier =>
    simp only [found] at succeeded
    cases succeeded
    exact ⟨_, .one (by simp [found]), .name found⟩
  | leftParen =>
    simp only [found] at succeeded
    rw [advance_bind] at succeeded
    obtain ⟨inner, between, read, continued⟩ := bind_eq_ok_iff.mp succeeded
    obtain ⟨tokens, passed, written⟩ := sound read
    rw [kind_bind] at continued
    cases closed : between.current.kind with
    | rightParen =>
      simp only [closed] at continued
      cases continued
      have closing : between.Passes [between.current] between.advance := .one (by simp [closed])
      exact ⟨_, (passed.trans closing).cons (by simp [found]), .parentheses found written closed⟩
    | _ =>
      simp only [closed] at continued
      cases continued
  | _ =>
    simp only [found] at succeeded
    cases succeeded

/-- A factor under any bound is sound. -/
theorem factorWithin_sound (bound : List Token) :
    Sound (factorWithin bound) (Expression .factor) := by
  induction bound with
  | nil => exact factorOf_sound fun impossible => by cases impossible
  | cons token bound inductionHypothesis => exact factorOf_sound (exprOf_sound inductionHypothesis)

/-- What is read as a factor is written as one. -/
theorem factor_sound : Sound factor (Expression .factor) := by
  intro before after value succeeded
  exact factorWithin_sound before.rest succeeded

/-- An expression that is read is written by the tokens passed. -/
theorem expr_sound : Sound expr (Expression .expr) := exprOf_sound factor_sound

/-! ## Statements -/

section Items

variable {α : Type} {separator : Token.Kind} {item : Reading α} {Part : List Token → α → Prop}

/-- Further items continue a first one whose tokens are known. -/
theorem itemsFrom_sound (sound : Sound item Part) (other : separator ≠ .endOfFile)
    {bound : List Token} {part : α} {parts : List α} {before after : Cursor}
    {tokens : List Token} (written : Part tokens part)
    (succeeded : itemsFrom separator item bound before = (.ok parts, after)) :
    ∃ others, before.Passes others after ∧
      Separated separator Part (tokens ++ others) (part :: parts) := by
  have alone : Separated separator Part (tokens ++ []) [part] := by
    rw [List.append_nil]
    exact .one written
  induction bound generalizing part parts before tokens with
  | nil =>
    cases succeeded
    exact ⟨[], .refl _, alone⟩
  | cons token bound inductionHypothesis =>
    by_cases separates : before.current.kind = separator
    · rw [itemsFrom_cons token bound separates] at succeeded
      obtain ⟨first, between, found, continued⟩ := bind_eq_ok_iff.mp succeeded
      obtain ⟨rest, final, others, finished⟩ := bind_eq_ok_iff.mp continued
      cases finished
      obtain ⟨firstTokens, passed, firstWritten⟩ := sound found
      have firstAlone : Separated separator Part (firstTokens ++ []) [first] := by
        rw [List.append_nil]
        exact .one firstWritten
      obtain ⟨restTokens, passedOn, restWritten⟩ :=
        inductionHypothesis firstWritten others firstAlone
      refine ⟨_, (passed.trans passedOn).cons (separates ▸ other), ?_⟩
      exact .more written separates restWritten
    · rw [itemsFrom_stop (token :: bound) separates] at succeeded
      cases succeeded
      exact ⟨[], .refl _, alone⟩

/-- Items with separators between them are sound if each item is. -/
theorem items_sound (sound : Sound item Part) (other : separator ≠ .endOfFile) :
    Sound (items separator item) (Separated separator Part) := by
  intro before after parts succeeded
  obtain ⟨first, between, found, continued⟩ := bind_eq_ok_iff.mp succeeded
  rw [remaining_bind] at continued
  obtain ⟨rest, final, others, finished⟩ := bind_eq_ok_iff.mp continued
  cases finished
  obtain ⟨tokens, passed, written⟩ := sound found
  obtain ⟨restTokens, passedOn, restWritten⟩ := itemsFrom_sound sound other written others
  exact ⟨_, passed.trans passedOn, restWritten⟩

end Items

/-- What may be printed is sound. -/
theorem printItem_sound : Sound printItem Item := by
  intro before after value succeeded
  have expression (succeeded : (do let value ← expr; pure (PrintItem.value value)) before =
      (.ok value, after)) : ∃ tokens, before.Passes tokens after ∧ Item tokens value := by
    obtain ⟨found, between, read, finished⟩ := bind_eq_ok_iff.mp succeeded
    cases finished
    obtain ⟨tokens, passed, written⟩ := expr_sound read
    exact ⟨tokens, passed, .expression written⟩
  rw [printItem, kind_bind] at succeeded
  cases found : before.current.kind with
  | string =>
    simp only [found] at succeeded
    cases succeeded
    exact ⟨_, .one (by simp [found]), .string found⟩
  | number =>
    simp only [found] at succeeded
    exact expression succeeded
  | identifier =>
    simp only [found] at succeeded
    exact expression succeeded
  | leftParen =>
    simp only [found] at succeeded
    exact expression succeeded
  | _ =>
    simp only [found] at succeeded
    cases succeeded

/-- A required token is passed, and its value given. -/
theorem required_sound {wanted : Token.Kind} {expectation : Expectation}
    (other : wanted ≠ .endOfFile) {before after : Cursor} {value : Value}
    (succeeded : required wanted expectation before = (.ok value, after)) :
    before.current.kind = wanted ∧ value = before.current.value ∧
      before.Passes [before.current] after := by
  obtain ⟨isWanted, rfl, rfl⟩ := required_eq_ok_iff.mp succeeded
  exact ⟨isWanted, rfl, .one (isWanted ▸ other)⟩

/-- A comparison is passed, and it is the one that the token writes. -/
theorem comparison_sound {before after : Cursor} {which : Comparison}
    (succeeded : comparison before = (.ok which, after)) :
    before.current.kind = .comparison which ∧ before.Passes [before.current] after := by
  rw [comparison, kind_bind] at succeeded
  cases found : before.current.kind with
  | comparison written =>
    simp only [found] at succeeded
    cases succeeded
    exact ⟨rfl, .one (by simp [found])⟩
  | _ =>
    simp only [found] at succeeded
    cases succeeded

/-- An assignment is passed from its first word on. -/
theorem assignment_sound {before after : Cursor} {stmt : Stmt}
    (begins : before.current.kind = .keyword .letWord)
    (succeeded : assignment before = (.ok stmt, after)) :
    ∃ tokens, before.Passes tokens after ∧ Statement tokens stmt := by
  rw [assignment, advance_bind, current_bind] at succeeded
  obtain ⟨name, atEquals, nameRead, continued⟩ := bind_eq_ok_iff.mp succeeded
  obtain ⟨equals, atValue, equalsRead, continued⟩ := bind_eq_ok_iff.mp continued
  obtain ⟨value, atEnd, valueRead, finished⟩ := bind_eq_ok_iff.mp continued
  cases finished
  obtain ⟨isName, rfl, passedName⟩ := required_sound (by decide) nameRead
  obtain ⟨isEquals, -, passedEquals⟩ := required_sound (by decide) equalsRead
  obtain ⟨tokens, passedValue, written⟩ := expr_sound valueRead
  refine ⟨_, (passedName.trans (passedEquals.trans passedValue)).cons (by simp [begins]), ?_⟩
  exact .assign begins isName isEquals written

/-- A print statement is passed from its first word on. -/
theorem print_sound {before after : Cursor} {stmt : Stmt}
    (begins : before.current.kind = .keyword .printWord)
    (succeeded : print before = (.ok stmt, after)) :
    ∃ tokens, before.Passes tokens after ∧ Statement tokens stmt := by
  rw [print, advance_bind] at succeeded
  obtain ⟨printed, atEnd, itemsRead, finished⟩ := bind_eq_ok_iff.mp succeeded
  cases finished
  obtain ⟨tokens, passed, written⟩ := items_sound printItem_sound (by decide) itemsRead
  exact ⟨_, passed.cons (by simp [begins]), .print begins written⟩

/-- A conditional jump is passed from its first word on. -/
theorem branch_sound {before after : Cursor} {stmt : Stmt}
    (begins : before.current.kind = .keyword .ifWord)
    (succeeded : branch before = (.ok stmt, after)) :
    ∃ tokens, before.Passes tokens after ∧ Statement tokens stmt := by
  rw [branch, advance_bind] at succeeded
  obtain ⟨tested, atThen, conditionRead, continued⟩ := bind_eq_ok_iff.mp succeeded
  obtain ⟨left, atSign, leftRead, conditionRest⟩ := bind_eq_ok_iff.mp conditionRead
  obtain ⟨which, atRight, signRead, conditionRest⟩ := bind_eq_ok_iff.mp conditionRest
  obtain ⟨right, _, rightRead, conditionEnd⟩ := bind_eq_ok_iff.mp conditionRest
  cases conditionEnd
  obtain ⟨thenWord, atTarget, thenRead, continued⟩ := bind_eq_ok_iff.mp continued
  obtain ⟨target, atEnd, targetRead, finished⟩ := bind_eq_ok_iff.mp continued
  cases finished
  obtain ⟨first, passedLeft, leftWritten⟩ := expr_sound leftRead
  obtain ⟨compares, passedSign⟩ := comparison_sound signRead
  obtain ⟨second, passedRight, rightWritten⟩ := expr_sound rightRead
  obtain ⟨isThen, -, passedThen⟩ := required_sound (by decide) thenRead
  obtain ⟨isNumber, rfl, passedTarget⟩ := required_sound (by decide) targetRead
  have passed := passedLeft.trans (passedSign.trans
    (passedRight.trans (passedThen.trans passedTarget)))
  exact ⟨_, passed.cons (by simp [begins]),
    .branch begins leftWritten compares rightWritten isThen isNumber⟩

/-- A word followed by a required token is passed with it. -/
theorem operand_sound {wanted : Token.Kind} {expectation : Expectation} {build : Value → Stmt}
    {before after : Cursor} {stmt : Stmt} (inside : before.current.kind ≠ .endOfFile)
    (other : wanted ≠ .endOfFile)
    (writes : ∀ token : Token, token.kind = wanted →
      Statement [before.current, token] (build token.value))
    (succeeded : (do advance; let value ← required wanted expectation; pure (build value)) before =
      (.ok stmt, after)) :
    ∃ tokens, before.Passes tokens after ∧ Statement tokens stmt := by
  rw [advance_bind] at succeeded
  obtain ⟨value, atEnd, read, finished⟩ := bind_eq_ok_iff.mp succeeded
  cases finished
  obtain ⟨isWanted, rfl, passed⟩ := required_sound other read
  exact ⟨_, passed.cons inside, writes _ isWanted⟩

/-- A statement that is read is written by the tokens passed. -/
theorem statement_sound : Sound statement Statement := by
  intro before after stmt succeeded
  rw [statement, kind_bind] at succeeded
  cases found : before.current.kind with
  | keyword word =>
    have inside : before.current.kind ≠ .endOfFile := by simp [found]
    cases word with
    | letWord => exact assignment_sound found (by simpa only [found] using succeeded)
    | printWord => exact print_sound found (by simpa only [found] using succeeded)
    | inputWord =>
      simp only [found] at succeeded
      exact operand_sound inside (by decide) (fun _ => .input found) succeeded
    | ifWord => exact branch_sound found (by simpa only [found] using succeeded)
    | gotoWord =>
      simp only [found] at succeeded
      exact operand_sound inside (by decide) (fun _ => .goto found) succeeded
    | gosubWord =>
      simp only [found] at succeeded
      exact operand_sound inside (by decide) (fun _ => .gosub found) succeeded
    | returnWord =>
      simp only [found] at succeeded
      cases succeeded
      exact ⟨_, .one inside, .ret found⟩
    | endWord =>
      simp only [found] at succeeded
      cases succeeded
      exact ⟨_, .one inside, .stop found⟩
    | thenWord =>
      simp only [found] at succeeded
      cases succeeded
  | remark =>
    simp only [found] at succeeded
    cases succeeded
    exact ⟨_, .one (by simp [found]), .remark found⟩
  | _ =>
    simp only [found] at succeeded
    cases succeeded

/-! ## Lines -/

/-- A line that is read is written by tokens passed, and ends there. -/
theorem line_sound {before after : Cursor} {read : Line}
    (succeeded : line before = (.ok read, after)) :
    ∃ tokens between, before.Passes tokens between ∧ NumberedLine tokens read ∧
      (between.current.kind = .newline ∧ after = between.advance ∨
        between.current.kind = .endOfFile ∧ after = between) := by
  rw [line, current_bind] at succeeded
  obtain ⟨number, atBody, numberRead, continued⟩ := bind_eq_ok_iff.mp succeeded
  obtain ⟨body, atEnd, bodyRead, continued⟩ := bind_eq_ok_iff.mp continued
  obtain ⟨_, _, endRead, finished⟩ := bind_eq_ok_iff.mp continued
  cases finished
  obtain ⟨isNumber, rfl, passedNumber⟩ := required_sound (by decide) numberRead
  obtain ⟨tokens, passedBody, written⟩ := items_sound statement_sound (by decide) bodyRead
  exact ⟨_, atEnd, passedNumber.trans passedBody, .intro isNumber written,
    lineEnd_eq_ok_iff.mp endRead⟩

/-- A line that is read leaves fewer tokens. -/
theorem line_shorter {before after : Cursor} {read : Line}
    (succeeded : line before = (.ok read, after)) :
    after.rest.length < before.rest.length := by
  obtain ⟨tokens, between, passed, written, ended⟩ := line_sound succeeded
  have lengths := congrArg List.length passed.rest
  cases written with
  | intro isNumber body =>
    simp only [List.length_append, List.length_cons] at lengths
    rcases ended with ⟨-, rfl⟩ | ⟨-, rfl⟩
    · rw [advance_rest_length]
      omega
    · omega

/-- A comment in front of a line is passed. -/
theorem skipRemarks_remark {cursor : Cursor} (token : Token) (bound : List Token)
    (isRemark : IsRemark cursor.current.kind) :
    skipRemarks (token :: bound) cursor = skipRemarks bound cursor.advance := by
  rw [skipRemarks, kind_bind]
  rcases isRemark with found | found <;> rw [found] <;> rfl

/-- Under any bound skipping ends in front of anything but a comment. -/
theorem skipRemarks_stop {cursor : Cursor} (bound : List Token)
    (other : ¬ IsRemark cursor.current.kind) :
    skipRemarks bound cursor = (.ok (), cursor) := by
  cases bound with
  | nil => rfl
  | cons token bound =>
    rw [skipRemarks, kind_bind]
    cases found : cursor.current.kind with
    | remark => exact absurd (.inl found) other
    | remarkText => exact absurd (.inr found) other
    | _ => rfl

/-- Skipping never fails. Under a bound no shorter than the rest it passes comments up to
the first token that is none. -/
theorem skipRemarks_exact (bound : List Token) (before : Cursor)
    (enough : before.rest.length ≤ bound.length) :
    ∃ comments after, skipRemarks bound before = (.ok (), after) ∧
      before.Passes comments after ∧ Remarks comments ∧ ¬ IsRemark after.current.kind := by
  induction bound generalizing before with
  | nil =>
    have finished : before.rest = [] := List.eq_nil_of_length_eq_zero (Nat.le_zero.mp enough)
    refine ⟨[], before, rfl, .refl before, by simp [Remarks], ?_⟩
    rw [kind_of_rest_nil finished]
    simp [IsRemark]
  | cons token bound inductionHypothesis =>
    by_cases isRemark : IsRemark before.current.kind
    · have inside : before.current.kind ≠ .endOfFile := by
        intro finished
        rcases isRemark with found | found <;> rw [finished] at found <;> cases found
      have shorter : before.advance.rest.length ≤ bound.length := by
        rw [advance_rest_length]
        simp only [List.length_cons] at enough
        omega
      obtain ⟨comments, after, skipped, passed, remarks, stopped⟩ :=
        inductionHypothesis before.advance shorter
      refine ⟨before.current :: comments, after, ?_, passed.cons inside, ?_, stopped⟩
      · rw [skipRemarks_remark token bound isRemark, skipped]
      · intro comment member
        rcases List.mem_cons.mp member with rfl | member
        · exact isRemark
        · exact remarks comment member
    · exact ⟨[], before, skipRemarks_stop _ isRemark, .refl before, by simp [Remarks], isRemark⟩

/-- Lines that are read up to the end of the file are written by the tokens passed. -/
theorem linesFrom_sound {bound : List Token} {before after : Cursor} {lines : Program}
    (enough : before.rest.length ≤ bound.length)
    (succeeded : linesFrom bound before = (.ok lines, after)) :
    ∃ tokens, before.Passes tokens after ∧ Lines tokens lines ∧
      after.current.kind = .endOfFile := by
  have noRemarks : Remarks [] := by simp [Remarks]
  induction bound generalizing before lines with
  | nil =>
    have finished : before.rest = [] := List.eq_nil_of_length_eq_zero (Nat.le_zero.mp enough)
    cases succeeded
    exact ⟨[], .refl _, .none noRemarks, kind_of_rest_nil finished⟩
  | cons token bound inductionHypothesis =>
    by_cases inside : before.current.kind = .endOfFile
    · rw [linesFrom_end _ inside] at succeeded
      cases succeeded
      exact ⟨[], .refl _, .none noRemarks, inside⟩
    · obtain ⟨comments, between, skipped, passed, remarks, _⟩ :=
        skipRemarks_exact before.rest before (Nat.le_refl _)
      rw [linesFrom_cons token bound inside skipped] at succeeded
      split at succeeded
      · next finished =>
        cases succeeded
        exact ⟨comments, passed, .none remarks, finished⟩
      · obtain ⟨first, atRest, lineRead, continued⟩ := bind_eq_ok_iff.mp succeeded
        obtain ⟨rest, atEnd, restRead, finished⟩ := bind_eq_ok_iff.mp continued
        cases finished
        obtain ⟨tokens, atLineEnd, passedLine, written, ended⟩ := line_sound lineRead
        have shorter : atRest.rest.length ≤ bound.length := by
          have shrunk := Nat.lt_of_lt_of_le (line_shorter lineRead) passed.rest_length_le
          exact Nat.le_of_lt_succ (Nat.lt_of_lt_of_le shrunk enough)
        obtain ⟨others, passedRest, restWritten, atFileEnd⟩ :=
          inductionHypothesis shorter restRead
        rcases ended with ⟨isLineEnd, rfl⟩ | ⟨isFileEnd, rfl⟩
        · refine ⟨_, passed.trans (passedLine.trans (passedRest.cons (by simp [isLineEnd]))), ?_,
            atFileEnd⟩
          exact .more remarks written isLineEnd restWritten
        · rw [linesFrom_end _ isFileEnd] at restRead
          cases restRead
          exact ⟨_, passed.trans passedLine, .last remarks written, isFileEnd⟩

/-- A program that is read is written by the tokens in front of the end of the file. -/
theorem program_sound {before after : Cursor} {lines : Program}
    (succeeded : Reading.program before = (.ok lines, after)) :
    ∃ tokens, before.Passes tokens after ∧ Lines tokens lines ∧
      after.current.kind = .endOfFile :=
  linesFrom_sound (Nat.le_refl _) succeeded

end Grammar

end LineBasic.Program
