import LineBasic.Machine.Eval
import LineBasic.Proofs.GrammarCompleteness
import Mathlib.Logic.Basic

/-!
# Precedence

An expression without parentheses is a chain of operands with operators between them. What
it means is a matter of convention: the chain is cut at its additions and subtractions into
terms, each term is computed from left to right, and so are then the sums of the terms. The
convention is stated here on the chain alone, with no tree in between.

Reading takes exactly the chain and makes a tree of it, and the value of the tree is the
value by convention. This holds for values of all kinds, with the first fault on the way as
the fault of the whole. Where the operands are numbers, the only fault is division by zero,
and it arises exactly if a term has a zero among its divisors.
-/

namespace LineBasic.Arithmetic

open Program Program.Grammar
open Machine (Store)

/-! ## Chains and their terms -/

/-- A number or a variable. -/
structure Operand where
  token : Token
  plain : token.kind = .number ∨ token.kind = .identifier

/-- An operator and the operand behind it. -/
structure Link where
  op : ArithOp
  sign : Token
  signed : sign.kind = .arith op
  operand : Operand

/-- Operands with operators between them. -/
structure Chain where
  first : Operand
  links : List Link

/-- A link that continues a term. -/
structure Factor extends Link where
  multiplies : op = .times ∨ op = .dividedBy

/-- Operands that are multiplied and divided. -/
structure Term where
  first : Operand
  factors : List Factor

/-- A link that opens a term, and the factors that continue it. -/
structure Summand extends Link where
  adds : op = .plus ∨ op = .minus
  factors : List Factor

/-- The term that is added or subtracted. -/
def Summand.term (summand : Summand) : Term := ⟨summand.operand, summand.factors⟩

/-- An operator that does not multiply or divide adds or subtracts. -/
theorem adds_of_not_multiplies {op : ArithOp} (other : ¬ (op = .times ∨ op = .dividedBy)) :
    op = .plus ∨ op = .minus := by
  cases op <;> simp at other ⊢

/-- Cuts links in front of every one that adds or subtracts. The first factors continue a term
that stands in front of all the links. -/
def cut : List Link → List Factor × List Summand
  | [] => ([], [])
  | link :: rest =>
    let behind := cut rest
    if multiplies : link.op = .times ∨ link.op = .dividedBy then
      (⟨link, multiplies⟩ :: behind.1, behind.2)
    else
      ([], ⟨link, adds_of_not_multiplies multiplies, behind.1⟩ :: behind.2)

namespace Chain

/-- The operands of a chain. -/
def operands (chain : Chain) : List Operand := chain.first :: chain.links.map Link.operand

/-- The first term. -/
def leading (chain : Chain) : Term := ⟨chain.first, (cut chain.links).1⟩

/-- The terms that are added to it and subtracted. -/
def summands (chain : Chain) : List Summand := (cut chain.links).2

/-- All terms of a chain. -/
def terms (chain : Chain) : List Term := chain.leading :: chain.summands.map Summand.term

end Chain

/-- Cutting loses no link. -/
theorem cut_links (links : List Link) :
    (cut links).1.map Factor.toLink ++
      (cut links).2.flatMap (fun summand =>
        summand.toLink :: summand.factors.map Factor.toLink) = links := by
  induction links with
  | nil => rfl
  | cons link rest inductionHypothesis =>
    rw [cut]
    split
    · exact congrArg (link :: ·) inductionHypothesis
    · exact congrArg (link :: ·) inductionHypothesis

/-- The operands of the terms are those of the chain. -/
theorem Chain.operands_of_mem {chain : Chain} {term : Term} (member : term ∈ chain.terms) :
    term.first ∈ chain.operands ∧ ∀ factor ∈ term.factors, factor.operand ∈ chain.operands := by
  have inside {link : Link} (among : link ∈ chain.links) : link.operand ∈ chain.operands :=
    .tail _ (List.mem_map_of_mem among)
  have whole := cut_links chain.links
  rcases List.mem_cons.mp member with rfl | later
  · refine ⟨List.mem_cons_self, fun factor among => inside ?_⟩
    rw [← whole]
    exact List.mem_append_left _ (List.mem_map_of_mem among)
  · obtain ⟨summand, among, rfl⟩ := List.mem_map.mp later
    have links : ∀ link ∈ summand.toLink :: summand.factors.map Factor.toLink,
        link ∈ chain.links := by
      intro link held
      rw [← whole]
      exact List.mem_append_right _ (List.mem_flatMap_of_mem among held)
    refine ⟨inside (links _ List.mem_cons_self), fun factor held => inside (links _ ?_)⟩
    exact .tail _ (List.mem_map_of_mem held)

/-! ## The value by convention -/

/-- The value of an operand in a store. -/
def Operand.value (store : Store) (operand : Operand) : Value :=
  if operand.token.kind = .number then operand.token.value else store.get operand.token.value

/-- The value of a term, from left to right. -/
def Term.eval (store : Store) (term : Term) : Except Fault Value :=
  term.factors.foldlM (fun product factor => factor.op.apply product (factor.operand.value store))
    (term.first.value store)

/-- The value of a chain: those of its terms, added and subtracted from left to right. -/
def Chain.eval (store : Store) (chain : Chain) : Except Fault Value := do
  let leading ← chain.leading.eval store
  chain.summands.foldlM
    (fun sum summand => do
      let value ← summand.term.eval store
      summand.op.apply sum value) leading

/-- A term of numbers, by exact multiplication and division to the floor. -/
def Term.amount (amounts : Operand → Int) (term : Term) : Int :=
  term.factors.foldl (fun product factor => factor.op.compute product (amounts factor.operand))
    (amounts term.first)

/-- A chain of numbers. -/
def Chain.amount (amounts : Operand → Int) (chain : Chain) : Int :=
  chain.summands.foldl (fun sum summand => summand.op.compute sum (summand.term.amount amounts))
    (chain.leading.amount amounts)

/-- A term of numbers has a zero among its divisors. -/
def Term.MeetsZero (amounts : Operand → Int) (term : Term) : Prop :=
  ∃ factor ∈ term.factors, factor.op = .dividedBy ∧ amounts factor.operand = 0

/-! ## Tokens and trees -/

/-- The tokens of a link. -/
def Link.tokens (link : Link) : List Token := [link.sign, link.operand.token]

/-- The tokens of a chain. -/
def Chain.tokens (chain : Chain) : List Token :=
  chain.first.token :: chain.links.flatMap Link.tokens

/-- The tokens of a term. -/
def Term.tokens (term : Term) : List Token :=
  term.first.token :: term.factors.flatMap fun factor => factor.tokens

/-- The tree of an operand. -/
def Operand.expr (operand : Operand) : Expr :=
  if operand.token.kind = .number then .constant operand.token.value else .var operand.token.value

/-- Trees joined to one on the left, one after another. -/
def joined {α : Type} (op : α → ArithOp) (right : α → Expr) (left : Expr) (others : List α) :
    Expr :=
  others.foldl (fun left other => .binary (op other) left (right other)) left

/-- The tree of a term. -/
def Term.expr (term : Term) : Expr :=
  joined (fun factor => factor.op) (fun factor => factor.operand.expr) term.first.expr term.factors

/-- The tree of a chain. -/
def Chain.expr (chain : Chain) : Expr :=
  joined (fun summand => summand.op) (fun summand => summand.term.expr) chain.leading.expr
    chain.summands

/-- The tokens of a chain are those of its terms, with the signs between them. -/
theorem Chain.tokens_eq (chain : Chain) :
    chain.leading.tokens ++
      chain.summands.flatMap (fun summand => summand.sign :: summand.term.tokens) =
        chain.tokens := by
  have whole := congrArg (List.flatMap Link.tokens) (cut_links chain.links)
  rw [List.flatMap_append, List.flatMap_map, List.flatMap_assoc] at whole
  rw [tokens, ← whole]
  simp only [List.flatMap_cons, List.flatMap_map]
  rfl

/-- An operand writes its tree. -/
theorem Operand.written (operand : Operand) : Expression .factor [operand.token] operand.expr := by
  rw [expr]
  rcases operand.plain with isNumber | isName
  · rw [if_pos isNumber]
    exact .number isNumber
  · rw [if_neg (by simp [isName])]
    exact .name isName

/-- Factors behind a term continue it. -/
theorem Factor.written {front : List Token} {left : Expr} (written : Expression .term front left)
    (factors : List Factor) :
    Expression .term (front ++ factors.flatMap fun factor => factor.tokens)
      (joined (fun factor => factor.op) (fun factor => factor.operand.expr) left factors) := by
  induction factors generalizing front left with
  | nil => rwa [List.flatMap_nil, List.append_nil]
  | cons factor rest inductionHypothesis =>
    have further := inductionHypothesis
      (.product written factor.signed factor.multiplies factor.operand.written)
    rwa [List.append_assoc, List.cons_append] at further

/-- A term writes its tree. -/
theorem Term.written (term : Term) : Expression .term term.tokens term.expr :=
  Factor.written (.factor term.first.written) term.factors

/-- Summands behind an expression continue it. -/
theorem Summand.written {front : List Token} {left : Expr} (written : Expression .expr front left)
    (summands : List Summand) :
    Expression .expr
      (front ++ summands.flatMap fun summand => summand.sign :: summand.term.tokens)
      (joined (fun summand => summand.op) (fun summand => summand.term.expr) left summands) := by
  induction summands generalizing front left with
  | nil => rwa [List.flatMap_nil, List.append_nil]
  | cons summand rest inductionHypothesis =>
    have further := inductionHypothesis
      (.sum written summand.signed summand.adds summand.term.written)
    rwa [List.append_assoc, List.cons_append] at further

/-- A chain writes its tree. -/
theorem Chain.written (chain : Chain) : Expression .expr chain.tokens chain.expr := by
  rw [← tokens_eq]
  exact Summand.written (.term chain.leading.written) chain.summands

/-! ## Values of trees -/

/-- The value of an operand is that of its tree. -/
theorem Operand.eval_expr (operand : Operand) (store : Store) :
    operand.expr.eval store = .ok (operand.value store) := by
  rw [expr, value]
  split <;> rfl

/-- Joined trees are evaluated from left to right. -/
theorem eval_joined {α : Type} (store : Store) (op : α → ArithOp) (right : α → Expr) (left : Expr)
    (others : List α) :
    (joined op right left others).eval store =
      left.eval store >>= fun value => others.foldlM
        (fun value other => (right other).eval store >>= (op other).apply value) value := by
  induction others generalizing left with
  | nil => exact (bind_pure (left.eval store)).symm
  | cons other rest inductionHypothesis =>
    rw [joined, List.foldl_cons]
    refine (inductionHypothesis _).trans ?_
    simp only [List.foldlM_cons, Expr.eval, bind_assoc]

/-- The tree of a term has the value of the term. -/
theorem Term.eval_expr (term : Term) (store : Store) :
    term.expr.eval store = term.eval store := by
  rw [expr, eval_joined, Operand.eval_expr]
  simp only [Operand.eval_expr]
  rfl

/-- The tree of a chain has the value of the chain. -/
theorem Chain.eval_expr (chain : Chain) (store : Store) :
    chain.expr.eval store = chain.eval store := by
  rw [expr, eval_joined]
  simp only [Term.eval_expr]
  rfl

/-! ## Numbers -/

/-- The outcome is division by zero if something fails, and else a number. -/
structure Yields (fails : Prop) (n : Int) (outcome : Except Fault Value) : Prop where
  fault : fails → outcome = .error .divisionByZero
  number : ¬ fails → outcome = .ok (.number n)

namespace Yields

/-- Joining two numbers fails exactly if it is a division by zero. -/
theorem applied (op : ArithOp) (total n : Int) :
    Yields (op = .dividedBy ∧ n = 0) (op.compute total n)
      (op.apply (.number total) (.number n)) := by
  rw [op.apply_number]
  exact ⟨fun byZero => if_pos byZero, fun other => if_neg other⟩

/-- If an outcome fails, so does what follows it; else what follows it decides. -/
theorem bind {fails further : Prop} {n total : Int} {outcome : Except Fault Value}
    {next : Value → Except Fault Value} (yields : Yields fails n outcome)
    (follows : Yields further total (next (.number n))) :
    Yields (fails ∨ further) total (outcome >>= next) := by
  by_cases failing : fails
  · refine ⟨fun _ => ?_, fun unfailing => absurd (.inl failing) unfailing⟩
    rw [yields.fault failing]
    rfl
  · rw [yields.number failing]
    constructor
    · intro fails
      exact follows.fault (fails.resolve_left failing)
    · intro unfailing
      exact follows.number fun fails => unfailing (.inr fails)

/-- Outcomes joined to a number, from left to right. -/
theorem foldlM {α : Type} (op : α → ArithOp) {outcome : α → Except Fault Value}
    {fails : α → Prop} {amount : α → Int} {others : List α}
    (each : ∀ other ∈ others, Yields (fails other) (amount other) (outcome other)) (total : Int) :
    Yields (∃ other ∈ others, fails other ∨ op other = .dividedBy ∧ amount other = 0)
      (others.foldl (fun total other => (op other).compute total (amount other)) total)
      (others.foldlM (fun value other => outcome other >>= (op other).apply value)
        (.number total)) := by
  induction others generalizing total with
  | nil => exact ⟨by simp, fun _ => rfl⟩
  | cons first rest inductionHypothesis =>
    obtain ⟨here, behind⟩ := List.forall_mem_cons.mp each
    have one := here.bind (applied (op first) total (amount first))
    have further := inductionHypothesis behind ((op first).compute total (amount first))
    rw [List.foldlM_cons, List.foldl_cons]
    simp only [List.mem_cons, exists_eq_or_imp]
    exact one.bind further

end Yields

section Numbers

variable {store : Store} {amounts : Operand → Int}

/-- A term of numbers is computed exactly, unless it has a zero among its divisors. -/
theorem Term.yields {term : Term} (first : term.first.value store = .number (amounts term.first))
    (others : ∀ factor ∈ term.factors,
      factor.operand.value store = .number (amounts factor.operand)) :
    Yields (term.MeetsZero amounts) (term.amount amounts) (term.eval store) := by
  have each : ∀ factor ∈ term.factors, Yields False (amounts factor.operand)
      (.ok (factor.operand.value store)) := by
    intro factor member
    exact ⟨False.elim, fun _ => congrArg Except.ok (others factor member)⟩
  have folded := Yields.foldlM (fun factor => factor.op) each (amounts term.first)
  rw [← first] at folded
  simp only [false_or] at folded
  exact folded

/-- A chain of numbers is computed exactly, unless a term has a zero among its divisors. -/
theorem Chain.yields {chain : Chain}
    (known : ∀ operand ∈ chain.operands, operand.value store = .number (amounts operand)) :
    Yields (∃ term ∈ chain.terms, term.MeetsZero amounts) (chain.amount amounts)
      (chain.eval store) := by
  have each : ∀ term ∈ chain.terms,
      Yields (term.MeetsZero amounts) (term.amount amounts) (term.eval store) := by
    intro term member
    obtain ⟨first, others⟩ := chain.operands_of_mem member
    exact Term.yields (known _ first) fun factor among => known _ (others factor among)
  obtain ⟨leading, others⟩ := List.forall_mem_cons.mp each
  have summands : ∀ summand ∈ chain.summands, Yields (summand.term.MeetsZero amounts)
      (summand.term.amount amounts) (summand.term.eval store) :=
    fun summand member => others _ (List.mem_map_of_mem member)
  -- Only a factor divides, so no sum of terms is itself a division by zero.
  have noQuotient (summand : Summand) :
      ¬ (summand.op = .dividedBy ∧ summand.term.amount amounts = 0) := by
    rintro ⟨divides, -⟩
    rcases summand.adds with isSum | isDifference
    · simp [isSum] at divides
    · simp [isDifference] at divides
  have folded := Yields.foldlM (fun summand => summand.op) summands (chain.leading.amount amounts)
  simp only [noQuotient, or_false] at folded
  simp only [terms, List.mem_cons, exists_eq_or_imp, List.mem_map, exists_exists_and_eq_and]
  exact leading.bind folded

end Numbers

/-- Precedence and grouping. In front of anything but an operator, reading an expression takes
exactly the tokens of a chain. The value of what is read is that of the chain by convention,
whatever the variables hold. Where all operands are numbers, it is division by zero if and only
if a term has a zero among its divisors, and otherwise the number that is computed from the
terms.

The tokens of a chain derive its expression, and reading is complete for derivations that are not
followed by an operator. The value is found by induction along the chain: the expression groups to
the left, as the convention does. On numbers each step fails only for a zero divisor. -/
theorem expr_chain (chain : Chain) {before after : Cursor}
    (passed : before.Passes chain.tokens after) (ends : ∀ op, after.current.kind ≠ .arith op) :
    ∃ result, Reading.expr before = (.ok result, after) ∧
      ∀ store, result.eval store = chain.eval store ∧
        ∀ amounts : Operand → Int,
          (∀ operand ∈ chain.operands, operand.value store = .number (amounts operand)) →
          ((∃ fault, result.eval store = .error fault ∧ fault.message = "Divisão por zero") ↔
            ∃ term ∈ chain.terms, term.MeetsZero amounts) ∧
          ((∀ term ∈ chain.terms, ¬ term.MeetsZero amounts) →
            result.eval store = .ok (.number (chain.amount amounts))) := by
  refine ⟨chain.expr, expr_complete chain.written passed ends, fun store => ?_⟩
  rw [chain.eval_expr store]
  refine ⟨rfl, fun amounts known => ?_⟩
  obtain ⟨fault, number⟩ := Chain.yields known
  refine ⟨⟨?_, fun meets => ⟨.divisionByZero, fault meets, rfl⟩⟩, fun none => number (by simpa)⟩
  rintro ⟨found, failed, -⟩
  by_cases meets : ∃ term ∈ chain.terms, term.MeetsZero amounts
  · exact meets
  · rw [number meets] at failed
    cases failed

/-- A quotient below zero is rounded down before it is subtracted, and a variable that is not set
counts as zero, also behind a division. -/
theorem expr_chain_floor :
    let number (n : Int) : Operand := ⟨⟨.number, .number n, .number 1, .number 0⟩, .inl rfl⟩
    let name (text : String) : Operand :=
      ⟨⟨.identifier, .text text, .number 1, .number 0⟩, .inr rfl⟩
    let link (op : ArithOp) (operand : Operand) : Link :=
      ⟨op, ⟨.arith op, .absent, .number 1, .number 0⟩, rfl, operand⟩
    let chain : Chain := ⟨number 7, [link .minus (number 3), link .times (name "B"),
      link .dividedBy (number 2), link .plus (name "A")]⟩
    let store : Store := Store.empty.set (.text "B") (.number (-5))
    let rest : List Token := [⟨.newline, .text "\n", .number 1, .number 9⟩]
    let quotient : Chain := ⟨number 8, [link .minus (number 1), link .dividedBy (name "A")]⟩
    (∃ result, Reading.expr ⟨chain.tokens ++ rest, 0⟩ = (.ok result, ⟨rest, 9⟩) ∧
        result.eval store = .ok (.number 15)) ∧
      ∃ result, Reading.expr ⟨quotient.tokens ++ rest, 0⟩ = (.ok result, ⟨rest, 5⟩) ∧
        ∃ fault, result.eval store = .error fault ∧ fault.message = "Divisão por zero" := by
  intro number name link chain store rest quotient
  let amounts (operand : Operand) : Int := ((operand.value store).amount?).getD 0
  have passed (chain : Chain) : (⟨chain.tokens ++ rest, 0⟩ : Cursor).Passes chain.tokens
      ⟨rest, chain.tokens.length⟩ := ⟨rfl, (Nat.zero_add _).symm⟩
  have ends (place : Nat) : ∀ op, (⟨rest, place⟩ : Cursor).current.kind ≠ .arith op := by
    simp [Cursor.current, rest]
  have known : ∀ operand ∈ chain.operands ++ quotient.operands,
      operand.value store = .number (amounts operand) := by decide
  have unmet : ∀ term ∈ chain.terms, ¬ term.MeetsZero amounts := by
    simp only [Term.MeetsZero]
    decide
  have met : ∃ term ∈ quotient.terms, term.MeetsZero amounts := by
    simp only [Term.MeetsZero]
    decide
  obtain ⟨knownChain, knownQuotient⟩ := List.forall_mem_append.mp known
  obtain ⟨result, read, value⟩ := expr_chain chain (passed chain) (ends _)
  obtain ⟨divided, readToo, fault⟩ := expr_chain quotient (passed quotient) (ends _)
  exact ⟨⟨result, read, ((value store).2 amounts knownChain).2 unmet⟩, divided, readToo,
    ((fault store).2 amounts knownQuotient).1.mpr met⟩

end LineBasic.Arithmetic
