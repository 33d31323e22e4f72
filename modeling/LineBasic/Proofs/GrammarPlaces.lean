import LineBasic.Proofs.Cutting
import LineBasic.Proofs.Grammar

/-!
# What the grammar does not look at

Whether tokens write a program, and which one, depends on their kinds and values alone:
the lines and columns at which they stand do not matter. Nor does it matter what comments
say.
-/

namespace LineBasic

namespace Program.Grammar

/-- Two token lists agree in kinds and values, token by token. -/
def SameContents (tokens others : List Token) : Prop :=
  tokens.map Token.content = others.map Token.content

/-- What counts of a token: its kind and, unless it is a comment, its value. -/
def gist (token : Token) : Token.Kind × Value :=
  (token.kind, if token.kind = .remark then .absent else token.value)

/-- Two token lists agree in all that counts, token by token. -/
def Akin (tokens others : List Token) : Prop := tokens.map gist = others.map gist

/-- Lists that agree in kinds and values agree in all that counts. -/
theorem SameContents.akin {tokens others : List Token} (same : SameContents tokens others) :
    Akin tokens others := by
  have gists (list : List Token) : list.map gist = (list.map Token.content).map fun content =>
      (content.1, if content.1 = .remark then .absent else content.2) := by
    rw [List.map_map]
    exact List.map_congr_left fun _ _ => rfl
  rw [Akin, gists, gists, same]

namespace Akin

/-- A list that agrees with an empty one is empty. -/
theorem nil {others : List Token} (akin : Akin others []) : others = [] :=
  List.map_eq_nil_iff.mp akin

/-- A list that agrees with one that has a first token has a first token, too. -/
theorem cons {others tokens : List Token} {token : Token} (akin : Akin others (token :: tokens)) :
    ∃ first rest, others = first :: rest ∧ first.kind = token.kind ∧
      (token.kind ≠ .remark → first.value = token.value) ∧ Akin rest tokens := by
  obtain ⟨first, rest, rfl, agrees, further⟩ := List.map_eq_cons_iff.mp akin
  have kind : first.kind = token.kind := congrArg Prod.fst agrees
  refine ⟨first, rest, rfl, kind, ?_, further⟩
  intro other
  have value : (if first.kind = .remark then Value.absent else first.value) =
      if token.kind = .remark then Value.absent else token.value := congrArg Prod.snd agrees
  rwa [kind, if_neg other, if_neg other] at value

/-- A list that agrees with two, one after the other, can be cut in the same way. -/
theorem append {others first second : List Token} (akin : Akin others (first ++ second)) :
    ∃ left right, others = left ++ right ∧ Akin left first ∧ Akin right second := by
  rw [Akin, List.map_append] at akin
  obtain ⟨left, right, rfl, leftAkin, rightAkin⟩ := List.map_eq_append_iff.mp akin
  exact ⟨left, right, rfl, leftAkin, rightAkin⟩

end Akin

/-- Tokens that agree write the same expressions. -/
theorem Expression.congr {level : Level} {tokens others : List Token} {value : Expr}
    (written : Expression level tokens value) (akin : Akin others tokens) :
    Expression level others value := by
  induction written generalizing others with
  | number isNumber =>
    obtain ⟨token, _, rfl, kind, held, rest⟩ := akin.cons
    obtain rfl := rest.nil
    exact held (by simp [isNumber]) ▸ .number (kind.trans isNumber)
  | name isName =>
    obtain ⟨token, _, rfl, kind, held, rest⟩ := akin.cons
    obtain rfl := rest.nil
    exact held (by simp [isName]) ▸ .name (kind.trans isName)
  | parentheses opens inside closes inductionHypothesis =>
    obtain ⟨opening, _, rfl, opensToo, -, rest⟩ := akin.cons
    obtain ⟨inner, _, rfl, innerAkin, rest⟩ := rest.append
    obtain ⟨closing, _, rfl, closesToo, -, rest⟩ := rest.cons
    obtain rfl := rest.nil
    exact .parentheses (opensToo.trans opens) (inductionHypothesis innerAkin)
      (closesToo.trans closes)
  | factor alone inductionHypothesis => exact .factor (inductionHypothesis akin)
  | product chain signed multiplies last chainToo lastToo =>
    obtain ⟨left, _, rfl, leftAkin, rest⟩ := akin.append
    obtain ⟨sign, right, rfl, signedToo, -, rightAkin⟩ := rest.cons
    exact .product (chainToo leftAkin) (signedToo.trans signed) multiplies (lastToo rightAkin)
  | term alone inductionHypothesis => exact .term (inductionHypothesis akin)
  | sum chain signed adds last chainToo lastToo =>
    obtain ⟨left, _, rfl, leftAkin, rest⟩ := akin.append
    obtain ⟨sign, right, rfl, signedToo, -, rightAkin⟩ := rest.cons
    exact .sum (chainToo leftAkin) (signedToo.trans signed) adds (lastToo rightAkin)

/-- Tokens that agree write the same printed items. -/
theorem Item.congr {tokens others : List Token} {item : PrintItem} (written : Item tokens item)
    (akin : Akin others tokens) : Item others item := by
  cases written with
  | string isString =>
    obtain ⟨token, _, rfl, kind, held, rest⟩ := akin.cons
    obtain rfl := rest.nil
    exact held (by simp [isString]) ▸ .string (kind.trans isString)
  | expression written => exact .expression (written.congr akin)

/-- Tokens that agree write the same separated parts, if they write the same parts. -/
theorem Separated.congr {α : Type} {separator : Token.Kind} {Part : List Token → α → Prop}
    {tokens others : List Token} {parts : List α} (written : Separated separator Part tokens parts)
    (akin : Akin others tokens)
    (each : ∀ {tokens others part}, Part tokens part → Akin others tokens →
      Part others part) : Separated separator Part others parts := by
  induction written generalizing others with
  | one only => exact .one (each only akin)
  | more first separates rest inductionHypothesis =>
    obtain ⟨left, _, rfl, leftAkin, further⟩ := akin.append
    obtain ⟨mark, right, rfl, separatesToo, -, rightAkin⟩ := further.cons
    exact .more (each first leftAkin) (separatesToo.trans separates)
      (inductionHypothesis rightAkin)

/-- Tokens that agree write the same statements. -/
theorem Statement.congr {tokens others : List Token} {stmt : Stmt}
    (written : Statement tokens stmt) (akin : Akin others tokens) :
    Statement others stmt := by
  cases written with
  | assign begins isName isEquals written =>
    obtain ⟨word, _, rfl, wordToo, -, rest⟩ := akin.cons
    obtain ⟨name, _, rfl, nameToo, held, rest⟩ := rest.cons
    obtain ⟨equals, _, rfl, equalsToo, -, rest⟩ := rest.cons
    exact held (by simp [isName]) ▸ .assign (wordToo.trans begins) (nameToo.trans isName)
      (equalsToo.trans isEquals) (written.congr rest)
  | print begins listed =>
    obtain ⟨word, _, rfl, wordToo, -, rest⟩ := akin.cons
    exact .print (wordToo.trans begins) (listed.congr rest Item.congr)
  | input begins isName =>
    obtain ⟨word, _, rfl, wordToo, -, rest⟩ := akin.cons
    obtain ⟨name, _, rfl, nameToo, held, rest⟩ := rest.cons
    obtain rfl := rest.nil
    exact held (by simp [isName]) ▸ .input (wordToo.trans begins) (nameToo.trans isName)
  | branch begins leftSide compares rightSide isThen isNumber =>
    obtain ⟨word, _, rfl, wordToo, -, rest⟩ := akin.cons
    obtain ⟨left, _, rfl, leftAkin, rest⟩ := rest.append
    obtain ⟨sign, _, rfl, signToo, -, rest⟩ := rest.cons
    obtain ⟨right, _, rfl, rightAkin, rest⟩ := rest.append
    obtain ⟨thenWord, _, rfl, thenToo, -, rest⟩ := rest.cons
    obtain ⟨target, _, rfl, targetToo, held, rest⟩ := rest.cons
    obtain rfl := rest.nil
    exact held (by simp [isNumber]) ▸ .branch (wordToo.trans begins) (leftSide.congr leftAkin)
      (signToo.trans compares) (rightSide.congr rightAkin) (thenToo.trans isThen)
      (targetToo.trans isNumber)
  | goto begins isNumber =>
    obtain ⟨word, _, rfl, wordToo, -, rest⟩ := akin.cons
    obtain ⟨target, _, rfl, targetToo, held, rest⟩ := rest.cons
    obtain rfl := rest.nil
    exact held (by simp [isNumber]) ▸ .goto (wordToo.trans begins) (targetToo.trans isNumber)
  | gosub begins isNumber =>
    obtain ⟨word, _, rfl, wordToo, -, rest⟩ := akin.cons
    obtain ⟨target, _, rfl, targetToo, held, rest⟩ := rest.cons
    obtain rfl := rest.nil
    exact held (by simp [isNumber]) ▸ .gosub (wordToo.trans begins) (targetToo.trans isNumber)
  | ret begins =>
    obtain ⟨word, _, rfl, wordToo, -, rest⟩ := akin.cons
    obtain rfl := rest.nil
    exact .ret (wordToo.trans begins)
  | stop begins =>
    obtain ⟨word, _, rfl, wordToo, -, rest⟩ := akin.cons
    obtain rfl := rest.nil
    exact .stop (wordToo.trans begins)
  | remark begins =>
    obtain ⟨word, _, rfl, wordToo, -, rest⟩ := akin.cons
    obtain rfl := rest.nil
    exact .remark (wordToo.trans begins)

/-- Tokens that agree write the same line. -/
theorem NumberedLine.congr {tokens others : List Token} {line : Line}
    (written : NumberedLine tokens line) (akin : Akin others tokens) :
    NumberedLine others line := by
  cases written with
  | intro isNumber body =>
    obtain ⟨number, _, rfl, numberToo, held, rest⟩ := akin.cons
    exact held (by simp [isNumber]) ▸ .intro (numberToo.trans isNumber)
      (body.congr rest Statement.congr)

/-- Tokens that agree with comments are comments. -/
theorem Remarks.congr {tokens others : List Token} (remarks : Remarks tokens)
    (akin : Akin others tokens) : Remarks others := by
  intro other member
  have held : gist other ∈ tokens.map gist := akin ▸ List.mem_map_of_mem member
  obtain ⟨token, member, agrees⟩ := List.mem_map.mp held
  have kind : token.kind = other.kind := congrArg Prod.fst agrees
  exact kind ▸ remarks token member

/-- Tokens that agree write the same program. -/
theorem Lines.congr {tokens others : List Token} {program : Program}
    (written : Lines tokens program) (akin : Akin others tokens) :
    Lines others program := by
  induction written generalizing others with
  | none remarks => exact .none (remarks.congr akin)
  | last remarks written =>
    obtain ⟨comments, _, rfl, commentsAkin, rest⟩ := akin.append
    exact .last (remarks.congr commentsAkin) (written.congr rest)
  | more remarks written ends rest inductionHypothesis =>
    obtain ⟨comments, _, rfl, commentsAkin, further⟩ := akin.append
    obtain ⟨front, _, rfl, frontAkin, further⟩ := further.append
    obtain ⟨lineEnd, _, rfl, endsToo, -, further⟩ := further.cons
    exact .more (remarks.congr commentsAkin) (written.congr frontAkin) (endsToo.trans ends)
      (inductionHypothesis further)

end Program.Grammar

end LineBasic
