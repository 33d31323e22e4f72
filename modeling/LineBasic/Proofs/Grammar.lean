import LineBasic.Program.Reader

/-!
# The grammar of programs

The grammar relates token lists to what they write, without saying how they are read.
Chains of operands group to the left because a longer chain ends in its last operand:
the left side of an operator may be a chain of the same level and the right side may
not. Parentheses leave no trace in what they write.

A program is a sequence of lines. Comments may stand in front of each line and at the
end, but not between a line and the line end that follows it; the last line needs no
line end. No token that ends the file is part of a program.
-/

namespace LineBasic.Program.Grammar

/-- What may stand as an operand. -/
inductive Level where
  /-- A number, a variable or an expression in parentheses. -/
  | factor
  /-- Factors joined by multiplication and division. -/
  | term
  /-- Terms joined by addition and subtraction. -/
  | expr
deriving DecidableEq, Repr

/-- The tokens write the expression at the level. -/
inductive Expression : Level → List Token → Expr → Prop where
  | number {token : Token} (isNumber : token.kind = .number) :
      Expression .factor [token] (.constant token.value)
  | name {token : Token} (isName : token.kind = .identifier) :
      Expression .factor [token] (.var token.value)
  | parentheses {opening closing : Token} {tokens : List Token} {inner : Expr}
      (opens : opening.kind = .leftParen) (inside : Expression .expr tokens inner)
      (closes : closing.kind = .rightParen) :
      Expression .factor (opening :: (tokens ++ [closing])) inner
  | factor {tokens : List Token} {only : Expr} (alone : Expression .factor tokens only) :
      Expression .term tokens only
  | product {first second : List Token} {sign : Token} {op : ArithOp} {left right : Expr}
      (chain : Expression .term first left) (signed : sign.kind = .arith op)
      (multiplies : op = .times ∨ op = .dividedBy) (last : Expression .factor second right) :
      Expression .term (first ++ sign :: second) (.binary op left right)
  | term {tokens : List Token} {only : Expr} (alone : Expression .term tokens only) :
      Expression .expr tokens only
  | sum {first second : List Token} {sign : Token} {op : ArithOp} {left right : Expr}
      (chain : Expression .expr first left) (signed : sign.kind = .arith op)
      (adds : op = .plus ∨ op = .minus) (last : Expression .term second right) :
      Expression .expr (first ++ sign :: second) (.binary op left right)

/-- The tokens write what may be printed. -/
inductive Item : List Token → PrintItem → Prop where
  | string {token : Token} (isString : token.kind = .string) : Item [token] (.text token.value)
  | expression {tokens : List Token} {value : Expr} (written : Expression .expr tokens value) :
      Item tokens (.value value)

/-- The tokens write one part or more, with a separator between each two. -/
inductive Separated {α : Type} (separator : Token.Kind) (Part : List Token → α → Prop) :
    List Token → List α → Prop where
  | one {tokens : List Token} {part : α} (only : Part tokens part) :
      Separated separator Part tokens [part]
  | more {tokens others : List Token} {mark : Token} {part : α} {parts : List α}
      (first : Part tokens part) (separates : mark.kind = separator)
      (rest : Separated separator Part others parts) :
      Separated separator Part (tokens ++ mark :: others) (part :: parts)

/-- The tokens write the statement. -/
inductive Statement : List Token → Stmt → Prop where
  | assign {word name equals : Token} {tokens : List Token} {value : Expr}
      (begins : word.kind = .keyword .letWord) (isName : name.kind = .identifier)
      (isEquals : equals.kind = .comparison .equal) (written : Expression .expr tokens value) :
      Statement (word :: name :: equals :: tokens) (.assign name.value value)
  | print {word : Token} {tokens : List Token} {items : List PrintItem}
      (begins : word.kind = .keyword .printWord) (listed : Separated .comma Item tokens items) :
      Statement (word :: tokens) (.print items)
  | input {word name : Token} (begins : word.kind = .keyword .inputWord)
      (isName : name.kind = .identifier) :
      Statement [word, name] (.input name.value)
  | branch {word sign thenWord target : Token} {first second : List Token} {left right : Expr}
      {which : Comparison} (begins : word.kind = .keyword .ifWord)
      (leftSide : Expression .expr first left) (compares : sign.kind = .comparison which)
      (rightSide : Expression .expr second right)
      (isThen : thenWord.kind = .keyword .thenWord) (isNumber : target.kind = .number) :
      Statement (word :: (first ++ sign :: (second ++ [thenWord, target])))
        (.branch ⟨left, .known which, right⟩ target.value)
  | goto {word target : Token} (begins : word.kind = .keyword .gotoWord)
      (isNumber : target.kind = .number) :
      Statement [word, target] (.goto target.value)
  | gosub {word target : Token} (begins : word.kind = .keyword .gosubWord)
      (isNumber : target.kind = .number) :
      Statement [word, target] (.gosub target.value)
  | ret {word : Token} (begins : word.kind = .keyword .returnWord) : Statement [word] .ret
  | stop {word : Token} (begins : word.kind = .keyword .endWord) : Statement [word] .stop
  | remark {word : Token} (begins : word.kind = .remark) : Statement [word] .remark

/-- The tokens write a number and the statements of its line. -/
inductive NumberedLine : List Token → Line → Prop where
  | intro {number : Token} {tokens : List Token} {statements : List Stmt}
      (isNumber : number.kind = .number) (body : Separated .colon Statement tokens statements) :
      NumberedLine (number :: tokens) ⟨number.value, statements⟩

/-- The kinds of comments. -/
def IsRemark (kind : Token.Kind) : Prop := kind = .remark ∨ kind = .remarkText

/-- The tokens are comments. -/
def Remarks (tokens : List Token) : Prop := ∀ token ∈ tokens, IsRemark token.kind

/-- The tokens write the program. -/
inductive Lines : List Token → Program → Prop where
  | none {comments : List Token} (remarks : Remarks comments) : Lines comments []
  | last {comments tokens : List Token} {line : Line} (remarks : Remarks comments)
      (written : NumberedLine tokens line) :
      Lines (comments ++ tokens) [line]
  | more {comments tokens others : List Token} {lineEnd : Token} {line : Line} {lines : Program}
      (remarks : Remarks comments) (written : NumberedLine tokens line)
      (ends : lineEnd.kind = .newline) (rest : Lines others lines) :
      Lines (comments ++ (tokens ++ lineEnd :: others)) (line :: lines)

/-! ## Where the file does not end -/

/-- None of the tokens ends the file. -/
def Endless (tokens : List Token) : Prop := ∀ token ∈ tokens, token.kind ≠ .endOfFile

namespace Endless

/-- No tokens hold no end of the file. -/
theorem nil : Endless [] := by
  intro token member
  cases member

/-- A token of another kind in front adds no end of the file. -/
theorem cons {token : Token} {tokens : List Token} {kind : Token.Kind} (isKind : token.kind = kind)
    (other : kind ≠ .endOfFile) (rest : Endless tokens) : Endless (token :: tokens) := by
  intro found member
  rcases List.mem_cons.mp member with rfl | member
  · exact isKind ▸ other
  · exact rest found member

/-- Two parts without an end of the file have none together. -/
theorem append {first second : List Token} (start : Endless first) (finish : Endless second) :
    Endless (first ++ second) := by
  intro token member
  rcases List.mem_append.mp member with member | member
  · exact start token member
  · exact finish token member

end Endless

/-- No expression holds the end of the file. -/
theorem Expression.endless {level : Level} {tokens : List Token} {value : Expr}
    (written : Expression level tokens value) : Endless tokens := by
  induction written with
  | number isNumber => exact Endless.nil.cons isNumber (by decide)
  | name isName => exact Endless.nil.cons isName (by decide)
  | parentheses opens inside closes inductionHypothesis =>
    exact (inductionHypothesis.append (Endless.nil.cons closes (by decide))).cons opens (by decide)
  | factor alone inductionHypothesis => exact inductionHypothesis
  | product chain signed multiplies last chainEndless lastEndless =>
    exact chainEndless.append (lastEndless.cons signed (by simp))
  | term alone inductionHypothesis => exact inductionHypothesis
  | sum chain signed adds last chainEndless lastEndless =>
    exact chainEndless.append (lastEndless.cons signed (by simp))

/-- No printed item holds the end of the file. -/
theorem Item.endless {tokens : List Token} {item : PrintItem} (written : Item tokens item) :
    Endless tokens := by
  cases written with
  | string isString => exact Endless.nil.cons isString (by decide)
  | expression written => exact written.endless

/-- Separated parts hold no end of the file if no part does. -/
theorem Separated.endless {α : Type} {separator : Token.Kind} {Part : List Token → α → Prop}
    {tokens : List Token} {parts : List α} (written : Separated separator Part tokens parts)
    (other : separator ≠ .endOfFile) (each : ∀ {tokens part}, Part tokens part → Endless tokens) :
    Endless tokens := by
  induction written with
  | one only => exact each only
  | more first separates rest inductionHypothesis =>
    exact (each first).append (inductionHypothesis.cons separates other)

/-- No statement holds the end of the file. -/
theorem Statement.endless {tokens : List Token} {stmt : Stmt} (written : Statement tokens stmt) :
    Endless tokens := by
  cases written with
  | assign begins isName isEquals written =>
    exact ((written.endless.cons isEquals (by decide)).cons isName (by decide)).cons begins
      (by decide)
  | print begins listed =>
    exact (listed.endless (by decide) Item.endless).cons begins (by decide)
  | input begins isName => exact (Endless.nil.cons isName (by decide)).cons begins (by decide)
  | branch begins leftSide compares rightSide isThen isNumber =>
    have target := (Endless.nil.cons isNumber (by decide)).cons isThen (by decide)
    exact (leftSide.endless.append
      ((rightSide.endless.append target).cons compares (by simp))).cons begins (by decide)
  | goto begins isNumber => exact (Endless.nil.cons isNumber (by decide)).cons begins (by decide)
  | gosub begins isNumber => exact (Endless.nil.cons isNumber (by decide)).cons begins (by decide)
  | ret begins => exact Endless.nil.cons begins (by decide)
  | stop begins => exact Endless.nil.cons begins (by decide)
  | remark begins => exact Endless.nil.cons begins (by decide)

/-- No line holds the end of the file. -/
theorem NumberedLine.endless {tokens : List Token} {line : Line}
    (written : NumberedLine tokens line) : Endless tokens := by
  cases written with
  | intro isNumber body =>
    exact (body.endless (by decide) Statement.endless).cons isNumber (by decide)

/-- Comments do not end the file. -/
theorem Remarks.endless {tokens : List Token} (remarks : Remarks tokens) : Endless tokens := by
  intro token member finished
  rcases remarks token member with isRemark | isText
  · rw [isRemark] at finished
    cases finished
  · rw [isText] at finished
    cases finished

/-- No program holds the end of the file. -/
theorem Lines.endless {tokens : List Token} {program : Program} (written : Lines tokens program) :
    Endless tokens := by
  induction written with
  | none remarks => exact remarks.endless
  | last remarks written => exact remarks.endless.append written.endless
  | more remarks written ends rest inductionHypothesis =>
    exact remarks.endless.append
      (written.endless.append (inductionHypothesis.cons ends (by decide)))

/-! ## The input of a token list -/

/-- The tokens in front of the first that ends the file, or all of them. -/
def input (tokens : List Token) : List Token :=
  tokens.takeWhile fun token => decide (token.kind ≠ .endOfFile)

/-- A token that does not end the file belongs to the input. -/
theorem input_cons {token : Token} (inside : token.kind ≠ .endOfFile) (tokens : List Token) :
    input (token :: tokens) = token :: input tokens := by
  rw [input, List.takeWhile_cons, if_pos (by simp [inside]), input]

/-- Behind the input stands the end of the file. -/
theorem input_append (tokens : List Token) :
    ∃ rest, tokens = input tokens ++ rest ∧ (rest.headD Token.pastEnd).kind = .endOfFile := by
  induction tokens with
  | nil => exact ⟨[], rfl, rfl⟩
  | cons token tokens inductionHypothesis =>
    by_cases finished : token.kind = .endOfFile
    · exact ⟨token :: tokens, by simp [input, finished], finished⟩
    · obtain ⟨rest, whole, atEnd⟩ := inductionHypothesis
      refine ⟨rest, ?_, atEnd⟩
      rw [input_cons finished, List.cons_append]
      exact congrArg (token :: ·) whole

/-- Tokens of which none ends the file are their own input, and what follows the end of the
file does not change it. -/
theorem input_eq {tokens front rest : List Token} (whole : tokens = front ++ rest)
    (endless : Endless front) (finished : (rest.headD Token.pastEnd).kind = .endOfFile) :
    input tokens = front := by
  have stopped : rest.takeWhile (fun token => decide (token.kind ≠ .endOfFile)) = [] := by
    cases rest with
    | nil => rfl
    | cons token rest => simp_all
  rw [whole, input, List.takeWhile_append_of_pos, stopped, List.append_nil]
  intro token member
  exact decide_eq_true (endless token member)

/-- Tokens of which none ends the file are their own input. -/
theorem input_of_endless {tokens : List Token} (endless : Endless tokens) :
    input tokens = tokens :=
  input_eq (List.append_nil tokens).symm endless rfl

/-! ## First tokens -/

/-- The kinds with which an expression begins. -/
def BeginsExpression (kind : Token.Kind) : Prop :=
  kind = .number ∨ kind = .identifier ∨ kind = .leftParen

/-- Every expression begins with a number, a name or a parenthesis. -/
theorem Expression.begins {level : Level} {tokens : List Token} {value : Expr}
    (written : Expression level tokens value) :
    ∃ first others, tokens = first :: others ∧ BeginsExpression first.kind := by
  induction written with
  | number isNumber => exact ⟨_, [], rfl, .inl isNumber⟩
  | name isName => exact ⟨_, [], rfl, .inr (.inl isName)⟩
  | parentheses opens inside closes inductionHypothesis => exact ⟨_, _, rfl, .inr (.inr opens)⟩
  | factor alone inductionHypothesis => exact inductionHypothesis
  | product chain signed multiplies last chainBegins lastBegins =>
    obtain ⟨first, others, rfl, begins⟩ := chainBegins
    exact ⟨first, others ++ _, rfl, begins⟩
  | term alone inductionHypothesis => exact inductionHypothesis
  | sum chain signed adds last chainBegins lastBegins =>
    obtain ⟨first, others, rfl, begins⟩ := chainBegins
    exact ⟨first, others ++ _, rfl, begins⟩

/-! ## Parts -/

/-- Parts with separators between them are at least one. -/
theorem Separated.ne_nil {α : Type} {separator : Token.Kind} {Part : List Token → α → Prop}
    {tokens : List Token} {parts : List α} (written : Separated separator Part tokens parts) :
    parts ≠ [] := by
  cases written <;> exact List.cons_ne_nil _ _

/-- What holds of each part that is written holds of all of them. -/
theorem Separated.forall {α : Type} {separator : Token.Kind} {Part : List Token → α → Prop}
    {Holds : α → Prop} {tokens : List Token} {parts : List α}
    (written : Separated separator Part tokens parts)
    (each : ∀ {tokens part}, Part tokens part → Holds part) : ∀ part ∈ parts, Holds part := by
  induction written with
  | one only => exact List.forall_mem_singleton.mpr (each only)
  | more first separates rest inductionHypothesis =>
    exact List.forall_mem_cons.mpr ⟨each first, inductionHypothesis⟩

/-- What holds of each line that is written holds of all lines of a program. -/
theorem Lines.forall {Holds : Line → Prop} {tokens : List Token} {program : Program}
    (written : Lines tokens program)
    (each : ∀ {tokens line}, NumberedLine tokens line → Holds line) :
    ∀ line ∈ program, Holds line := by
  induction written with
  | none remarks => exact List.forall_mem_nil _
  | last remarks written => exact List.forall_mem_singleton.mpr (each written)
  | more remarks written ends rest inductionHypothesis =>
    exact List.forall_mem_cons.mpr ⟨each written, inductionHypothesis⟩

end LineBasic.Program.Grammar
