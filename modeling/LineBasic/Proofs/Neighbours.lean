import LineBasic.Proofs.Grammar
import Mathlib.Data.List.Chain

/-!
# Which tokens stand side by side

Of two neighbouring tokens of a program, the first is never continued by the second: no
number follows a number, no comparison follows a comparison, and behind a name there is
neither a name nor a comment nor any reserved word but the one behind a condition. What
follows a token of any other kind does not matter here.

Since what may follow a construct is named at each level of the grammar, the statements
speak of the tokens of a construct together with all tokens behind them.
-/

namespace LineBasic.Program.Grammar

/-- A token of the first kind may have one of the other kind as its neighbour. -/
def Touching (kind next : Token.Kind) : Prop :=
  match kind with
  | .number => next ≠ .number
  | .identifier => next ≠ .identifier ∧ next ≠ .remark ∧
      ∀ word, next = .keyword word → word = .thenWord
  | .comparison _ => ∀ which, next ≠ .comparison which
  | _ => True

/-- Each token may have the next one as its neighbour. -/
def Neighbours (tokens : List Token) : Prop :=
  tokens.IsChain fun token next => Touching token.kind next.kind

/-- The first token, if there is one, satisfies a test on kinds. -/
def Opens (test : Token.Kind → Prop) (tokens : List Token) : Prop :=
  ∀ token ∈ tokens.head?, test token.kind

/-- A kind that may stand behind an operand, whatever the operand ends with. -/
def Closing (next : Token.Kind) : Prop := Touching .number next ∧ Touching .identifier next

namespace Neighbours

/-- A token stands in front of others if it may touch the first of them. -/
theorem cons {token : Token} {kind : Token.Kind} {rest : List Token} (isKind : token.kind = kind)
    (touching : Opens (Touching kind) rest) (further : Neighbours rest) :
    Neighbours (token :: rest) := by
  apply List.isChain_cons.mpr
  subst isKind
  exact ⟨touching, further⟩

/-- A token of a kind that may touch every other stands in front of any tokens. -/
theorem free {token : Token} {kind : Token.Kind} {rest : List Token} (isKind : token.kind = kind)
    (touches : ∀ next, Touching kind next) (further : Neighbours rest) :
    Neighbours (token :: rest) :=
  cons isKind (fun next _ => touches next.kind) further

end Neighbours

/-- The first token of a list decides how it opens. -/
theorem Opens.cons {test : Token.Kind → Prop} {token : Token} {kind : Token.Kind}
    (isKind : token.kind = kind) (passes : test kind) (rest : List Token) :
    Opens test (token :: rest) := by
  rintro first (isFirst : some token = some first)
  cases isFirst
  exact isKind ▸ passes

/-- A number, a name or a parenthesis opens an expression, whatever follows it. -/
theorem Expression.opens {level : Level} {tokens : List Token} {value : Expr}
    (written : Expression level tokens value) {test : Token.Kind → Prop}
    (number : test .number) (name : test .identifier) (parenthesis : test .leftParen)
    (rest : List Token) : Opens test (tokens ++ rest) := by
  obtain ⟨first, others, rfl, begins⟩ := written.begins
  rcases begins with isNumber | isName | isParenthesis
  · exact .cons isNumber number _
  · exact .cons isName name _
  · exact .cons isParenthesis parenthesis _

/-- The tokens of an expression stand side by side, and so they do in front of what may follow
an operand. The induction takes the operators and parentheses behind a part along as what
follows it. -/
theorem Expression.neighbours {level : Level} {tokens : List Token} {value : Expr}
    (written : Expression level tokens value) {rest : List Token} (closes : Opens Closing rest)
    (further : Neighbours rest) : Neighbours (tokens ++ rest) := by
  induction written generalizing rest with
  | number isNumber => exact .cons isNumber (fun next isNext => (closes next isNext).1) further
  | name isName => exact .cons isName (fun next isNext => (closes next isNext).2) further
  | @parentheses opening closing tokens inner isOpening inside isClosing inductionHypothesis =>
    have closed : Neighbours (closing :: rest) := .free isClosing (fun _ => trivial) further
    have closing : Opens Closing (closing :: rest) :=
      .cons isClosing (by simp [Closing, Touching]) rest
    rw [List.cons_append, List.append_assoc, List.singleton_append]
    exact .free isOpening (fun _ => trivial) (inductionHypothesis closing closed)
  | factor alone inductionHypothesis => exact inductionHypothesis closes further
  | product chain signed multiplies last chainNeighbours lastNeighbours =>
    have behind := lastNeighbours closes further
    rw [List.append_assoc, List.cons_append]
    apply chainNeighbours
    · exact .cons signed (by simp [Closing, Touching]) _
    · exact .free signed (fun _ => trivial) behind
  | term alone inductionHypothesis => exact inductionHypothesis closes further
  | sum chain signed adds last chainNeighbours lastNeighbours =>
    have behind := lastNeighbours closes further
    rw [List.append_assoc, List.cons_append]
    apply chainNeighbours
    · exact .cons signed (by simp [Closing, Touching]) _
    · exact .free signed (fun _ => trivial) behind

/-- The token of a string, or the tokens of an expression, stand side by side. -/
theorem Item.neighbours {tokens : List Token} {item : PrintItem} (written : Item tokens item)
    {rest : List Token} (closes : Opens Closing rest) (further : Neighbours rest) :
    Neighbours (tokens ++ rest) := by
  cases written with
  | string isString => exact .free isString (fun _ => trivial) further
  | expression written => exact written.neighbours closes further

/-- Separated parts stand side by side if the parts do and the separator may follow each. -/
theorem Separated.neighbours {α : Type} {separator : Token.Kind} {Part : List Token → α → Prop}
    {tokens : List Token} {parts : List α} (written : Separated separator Part tokens parts)
    (closing : Closing separator) (touches : ∀ next, Touching separator next)
    (each : ∀ {tokens part}, Part tokens part → ∀ {rest}, Opens Closing rest → Neighbours rest →
      Neighbours (tokens ++ rest))
    {rest : List Token} (closes : Opens Closing rest) (further : Neighbours rest) :
    Neighbours (tokens ++ rest) := by
  induction written with
  | one only => exact each only closes further
  | more first separates others inductionHypothesis =>
    rw [List.append_assoc, List.cons_append]
    apply each first
    · exact .cons separates closing _
    · exact .free separates touches inductionHypothesis

/-- The tokens of a statement stand side by side. -/
theorem Statement.neighbours {tokens : List Token} {stmt : Stmt} (written : Statement tokens stmt)
    {rest : List Token} (closes : Opens Closing rest) (further : Neighbours rest) :
    Neighbours (tokens ++ rest) := by
  have number {token : Token} (isNumber : token.kind = .number) : Neighbours (token :: rest) :=
    .cons isNumber (fun next isNext => (closes next isNext).1) further
  have name {token : Token} (isName : token.kind = .identifier) : Neighbours (token :: rest) :=
    .cons isName (fun next isNext => (closes next isNext).2) further
  have compared {sign : Token} {which : Comparison} {tokens others : List Token} {value : Expr}
      (compares : sign.kind = .comparison which) (side : Expression .expr tokens value)
      (behind : Neighbours (tokens ++ others)) : Neighbours (sign :: (tokens ++ others)) :=
    .cons compares (side.opens (by simp [Touching]) (by simp [Touching]) (by simp [Touching]) _)
      behind
  cases written with
  | assign begins isName isEquals written =>
    have value := compared isEquals written (written.neighbours closes further)
    have assigned := Neighbours.cons isName (.cons isEquals (by simp [Touching]) _) value
    exact .free begins (fun _ => trivial) assigned
  | print begins listed =>
    apply Neighbours.free begins (fun _ => trivial)
    apply listed.neighbours _ (fun _ => trivial) Item.neighbours closes further
    simp [Closing, Touching]
  | input begins isName => exact .free begins (fun _ => trivial) (name isName)
  | branch begins leftSide compares rightSide isThen isNumber =>
    rw [List.cons_append, List.append_assoc, List.cons_append, List.append_assoc]
    apply Neighbours.free begins (fun _ => trivial)
    apply leftSide.neighbours
    · exact .cons compares (by simp [Closing, Touching]) _
    apply compared compares rightSide
    apply rightSide.neighbours
    · exact .cons isThen (by simp [Closing, Touching]) _
    · exact .free isThen (fun _ => trivial) (number isNumber)
  | goto begins isNumber => exact .free begins (fun _ => trivial) (number isNumber)
  | gosub begins isNumber => exact .free begins (fun _ => trivial) (number isNumber)
  | ret begins => exact .free begins (fun _ => trivial) further
  | stop begins => exact .free begins (fun _ => trivial) further
  | remark begins => exact .free begins (fun _ => trivial) further

/-- No number opens a statement. -/
theorem Statement.opens {tokens : List Token} {stmt : Stmt} (written : Statement tokens stmt)
    (rest : List Token) : Opens (Touching .number) (tokens ++ rest) := by
  cases written <;> exact .cons ‹_› (by simp [Touching]) _

/-- The tokens of a line stand side by side. -/
theorem NumberedLine.neighbours {tokens : List Token} {line : Line}
    (written : NumberedLine tokens line) {rest : List Token} (closes : Opens Closing rest)
    (further : Neighbours rest) : Neighbours (tokens ++ rest) := by
  cases written with
  | intro isNumber body =>
    have behind := body.neighbours (by simp [Closing, Touching]) (fun _ => trivial)
      Statement.neighbours closes further
    apply Neighbours.cons isNumber _ behind
    cases body with
    | one only => exact only.opens rest
    | more first separates others =>
      rw [List.append_assoc]
      exact first.opens _

/-- The tokens of a program stand side by side. -/
theorem Lines.neighbours {tokens : List Token} {program : Program}
    (written : Lines tokens program) : Neighbours tokens := by
  have comments {remarks rest : List Token} (areRemarks : Remarks remarks)
      (further : Neighbours rest) : Neighbours (remarks ++ rest) := by
    induction remarks with
    | nil => exact further
    | cons remark remarks inductionHypothesis =>
      have behind := inductionHypothesis fun token member => areRemarks token (.tail _ member)
      rcases areRemarks remark List.mem_cons_self with isRemark | isText
      · exact .free isRemark (fun _ => trivial) behind
      · exact .free isText (fun _ => trivial) behind
  have finished : Opens Closing [] := by simp [Opens]
  induction written with
  | @none remarks areRemarks =>
    have alone := comments areRemarks .nil
    rwa [List.append_nil] at alone
  | @last _ tokens _ areRemarks written =>
    have line := written.neighbours finished .nil
    rw [List.append_nil] at line
    exact comments areRemarks line
  | more areRemarks written ends rest inductionHypothesis =>
    apply comments areRemarks
    apply written.neighbours
    · exact .cons ends (by simp [Closing, Touching]) _
    · exact .free ends (fun _ => trivial) inductionHypothesis

end LineBasic.Program.Grammar
