import LineBasic.Fault

/-!
# Operations on values

On numbers the operations are those of exact arithmetic, division rounding toward
minus infinity. A truth value counts as one or zero. Texts and records can be joined
and repeated. Any other operation is a fault.

How much memory there is depends on the host and is an assumption here: a repeated
text or record of 2^31 parts or more is taken not to fit, and anything else to fit.
The limits on counts and lengths do not depend on it.

Any two values can be tested for sameness. Numbers are ordered by size, texts by
their characters, and records by the first fields that are not the same, a record
coming after each of its beginnings; other values have no order.
-/

namespace LineBasic

namespace Value

/-- The sum, or one value joined to another. -/
def plus (left right : Value) : Except Fault Value :=
  match left.amount?, right.amount? with
  | some a, some b => .ok (.number (a + b))
  | _, _ =>
    match left, right with
    | .text a, .text b => .ok (.text (a ++ b))
    | .record a, .record b => .ok (.record (a ++ b))
    | .text _, _ | .record _, _ => .error (.notJoinable left.kind right.kind)
    | _, _ => .error (.unsupported .plus left.kind right.kind)

/-- The difference. -/
def minus (left right : Value) : Except Fault Value :=
  match left.amount?, right.amount? with
  | some a, some b => .ok (.number (a - b))
  | _, _ => .error (.unsupported .minus left.kind right.kind)

/-- Whether a text or a record of so many parts does not fit in memory. The bound is
assumed; no rule of the language gives one. -/
def exceedsMemory (size : Nat) : Bool := 0x80000000 ≤ size

/-- A text or a record repeated; a negative count leaves nothing of it. -/
def repeated (sequence : Value) (count : Int) : Except Fault Value :=
  if ¬ Numeral.countable count then .error .repeatTooLarge
  else
    match sequence with
    | .text content =>
      let size := content.length * count.toNat
      if ¬ Numeral.countable size then .error .repeatedTextTooLong
      else if exceedsMemory size then .error .outOfMemory
      else if content.isEmpty then .ok (.text "")
      else .ok (.text (Nat.repeat (· ++ content) count.toNat ""))
    | .record fields =>
      if exceedsMemory (fields.length * count.toNat) then .error .outOfMemory
      else if fields.isEmpty then .ok (.record [])
      else .ok (.record (List.replicate count.toNat fields).flatten)
    | other => .ok other

/-- The product, or a text or record repeated. -/
def times (left right : Value) : Except Fault Value :=
  match left.amount?, right.amount? with
  | some a, some b => .ok (.number (a * b))
  | leftAmount, rightAmount =>
    if left.parts?.isSome then
      match rightAmount with
      | some count => left.repeated count
      | none => .error (.notRepeatable right.kind)
    else if right.parts?.isSome then
      match leftAmount with
      | some count => right.repeated count
      | none => .error (.notRepeatable left.kind)
    else
      .error (.unsupported .times left.kind right.kind)

/-- The quotient of whole numbers. A divisor that is the same as zero is a fault
whatever the dividend. -/
def dividedBy (left right : Value) : Except Fault Value :=
  if right.same (.number 0) then .error .divisionByZero
  else
    match left.amount?, right.amount? with
    | some a, some b => .ok (.number (Int.fdiv a b))
    | _, _ => .error (.unsupported .dividedBy left.kind right.kind)

end Value

/-- The operation on values. -/
def ArithOp.apply : ArithOp → Value → Value → Except Fault Value
  | .plus => Value.plus
  | .minus => Value.minus
  | .times => Value.times
  | .dividedBy => Value.dividedBy

/-- The comparison of integers. -/
def Comparison.decides : Comparison → Int → Int → Bool
  | .equal, left, right => left == right
  | .notEqual, left, right => left != right
  | .less, left, right => left < right
  | .greater, left, right => right < left
  | .lessEqual, left, right => left ≤ right
  | .greaterEqual, left, right => right ≤ left

namespace Value

/-- The place of one text before, at or after another, as a number to be compared
with zero. -/
def textOrder (left right : String) : Int :=
  if left < right then -1 else if left = right then 0 else 1

/-- The order of values of which none is a record. -/
def orderedPlain (comparison : Comparison) (left right : Value) : Except Fault Bool :=
  match left.amount?, right.amount? with
  | some a, some b => .ok (comparison.decides a b)
  | _, _ =>
    match left, right with
    | .text a, .text b => .ok (comparison.decides (textOrder a b) 0)
    | _, _ => .error (.notOrdered comparison left.kind right.kind)

mutual

/-- The order of values. -/
def ordered (comparison : Comparison) : Value → Value → Except Fault Bool
  | .record left, .record right => orderedAll comparison left right
  | left, right => orderedPlain comparison left right

/-- The order of lists of values, decided by the first that are not the same or else
by the lengths. -/
def orderedAll (comparison : Comparison) : List Value → List Value → Except Fault Bool
  | [], [] => .ok (comparison.decides 0 0)
  | [], _ :: _ => .ok (comparison.decides 0 1)
  | _ :: _, [] => .ok (comparison.decides 1 0)
  | left :: lefts, right :: rights =>
    if left.same right then orderedAll comparison lefts rights
    else ordered comparison left right

end

end Value

/-- The comparison of values. -/
def Comparison.holds (comparison : Comparison) (left right : Value) : Except Fault Bool :=
  match comparison with
  | .equal => .ok (left.same right)
  | .notEqual => .ok (!left.same right)
  | _ => Value.ordered comparison left right

/-! ## Numbers -/

/-- The operation on integers. -/
def ArithOp.compute : ArithOp → Int → Int → Int
  | .plus, left, right => left + right
  | .minus, left, right => left - right
  | .times, left, right => left * right
  | .dividedBy, left, right => Int.fdiv left right

/-- Numbers are the same exactly when they are equal. -/
@[simp]
theorem Value.same_number (left right : Int) :
    Value.same (.number left) (.number right) = (left == right) := by
  by_cases equal : left = right
  · simp [Value.same, equal]
  · have apart : Value.number left ≠ Value.number right := fun same => equal (Value.number.inj same)
    rw [Value.same, Value.key, Value.key, beq_eq_false_iff_ne.mpr apart,
      beq_eq_false_iff_ne.mpr equal]

/-- On numbers only division by zero is a fault, and every other result is a number. -/
theorem ArithOp.apply_number (op : ArithOp) (left right : Int) :
    op.apply (.number left) (.number right) =
      if op = .dividedBy ∧ right = 0 then .error .divisionByZero
      else .ok (.number (op.compute left right)) := by
  cases op with
  | plus => simp [apply, Value.plus, Value.amount?, compute]
  | minus => simp [apply, Value.minus, Value.amount?, compute]
  | times => simp [apply, Value.times, Value.amount?, compute]
  | dividedBy => simp [apply, Value.dividedBy, Value.amount?, compute]

/-- Numbers can always be compared. -/
theorem Comparison.holds_number (comparison : Comparison) (left right : Int) :
    comparison.holds (.number left) (.number right) = .ok (comparison.decides left right) := by
  cases comparison with
  | equal => simp [holds, decides]
  | notEqual => simp [holds, decides, bne]
  | less => simp [holds, Value.ordered, Value.orderedPlain, Value.amount?]
  | greater => simp [holds, Value.ordered, Value.orderedPlain, Value.amount?]
  | lessEqual => simp [holds, Value.ordered, Value.orderedPlain, Value.amount?]
  | greaterEqual => simp [holds, Value.ordered, Value.orderedPlain, Value.amount?]

end LineBasic
