import LineBasic.Numeral.Integer
import LineBasic.Text.Quoted

/-!
# Values

A value is a number, a text, a truth value, a record of values, or the value that
stands for none. Source text makes programs that hold and compute numbers only,
with texts as names; a program given as data may hold any value in any place.

Two values count as the same when they differ at most in that one has a truth value
where the other has the number one or zero. Every value has a key, in which truth
values are replaced by these numbers, and values are the same exactly when their
keys are equal.
-/

namespace LineBasic

/-- What a program holds and computes. -/
inductive Value where
  | absent
  | truth (holds : Bool)
  | number (n : Int)
  | text (content : String)
  | record (fields : List Value)
deriving Repr, Inhabited

namespace Value

/-- The kinds of value. -/
inductive Kind where
  | absent
  | truth
  | number
  | text
  | record
deriving DecidableEq, Repr

/-- The kind of a value. -/
def kind : Value → Kind
  | .absent => .absent
  | .truth _ => .truth
  | .number _ => .number
  | .text _ => .text
  | .record _ => .record

/-- The name of a kind in messages. -/
def Kind.name : Kind → String
  | .absent => "NoneType"
  | .truth => "bool"
  | .number => "int"
  | .text => "str"
  | .record => "tuple"

/-! ## Equality -/

mutual

/-- Whether two values are equal. -/
def equal : Value → Value → Bool
  | .absent, .absent => true
  | .truth left, .truth right => left == right
  | .number left, .number right => left == right
  | .text left, .text right => left == right
  | .record left, .record right => equalAll left right
  | _, _ => false

/-- Whether two lists of values are equal. -/
def equalAll : List Value → List Value → Bool
  | [], [] => true
  | left :: lefts, right :: rights => equal left right && equalAll lefts rights
  | _, _ => false

end

mutual

/-- The test decides equality. -/
theorem equal_iff : (left right : Value) → (equal left right = true ↔ left = right)
  | .record left, right => by
    cases right <;> simp [equal, equalAll_iff left]
  | .absent, right => by cases right <;> simp [equal]
  | .truth _, right => by cases right <;> simp [equal]
  | .number _, right => by cases right <;> simp [equal]
  | .text _, right => by cases right <;> simp [equal]

/-- The test decides equality of lists. -/
theorem equalAll_iff : (left right : List Value) → (equalAll left right = true ↔ left = right)
  | [], right => by cases right <;> simp [equalAll]
  | first :: rest, right => by
    cases right <;> simp [equalAll, equal_iff first, equalAll_iff rest]

end

instance : DecidableEq Value := fun left right =>
  decidable_of_iff (equal left right = true) (equal_iff left right)

mutual

/-- The value with numbers for all its truth values. -/
def key : Value → Value
  | .truth holds => .number (if holds then 1 else 0)
  | .record fields => .record (keys fields)
  | .absent => .absent
  | .number n => .number n
  | .text content => .text content

/-- The keys of a list of values. -/
def keys : List Value → List Value
  | [] => []
  | first :: rest => key first :: keys rest

end

/-- Whether two values count as the same. -/
def same (left right : Value) : Bool := left.key == right.key

/-- Values are the same exactly when their keys are equal. -/
theorem same_iff (left right : Value) : left.same right = true ↔ left.key = right.key := by
  rw [same, beq_iff_eq]

/-! ## Written forms -/

/-- Writes a record's fields in parentheses. A single field keeps a comma. -/
def writtenRecord : List String → String
  | [] => "()"
  | [field] => "(" ++ field ++ ",)"
  | fields => "(" ++ String.intercalate ", " fields ++ ")"

mutual

/-- A value as it is written down, with its texts in quotes. -/
def written : Value → String
  | .absent => "None"
  | .truth holds => if holds then "True" else "False"
  | .number n => Numeral.write n
  | .text content => String.ofList (Text.quoted content.toList)
  | .record fields => writtenRecord (writtenAll fields)

/-- Every value of a list as it is written down. -/
def writtenAll : List Value → List String
  | [] => []
  | first :: rest => written first :: writtenAll rest

end

mutual

/-- Whether no number in a value is too long to be written. -/
def writable : Value → Bool
  | .number n => n.natAbs < Numeral.writeBound
  | .record fields => writableAll fields
  | .absent => true
  | .truth _ => true
  | .text _ => true

/-- Whether every value of a list can be written. -/
def writableAll : List Value → Bool
  | [] => true
  | first :: rest => writable first && writableAll rest

end

/-- A value as it is shown: a text stands for itself, without quotes. -/
def shown : Value → String
  | .text content => content
  | value => value.written

/-- A natural number is shown by its decimal digits. -/
theorem shown_number (n : Nat) : (Value.number n).shown = n.repr := by
  have notNegative : ¬ (n : Int) < 0 := by omega
  simp only [shown, written, Numeral.write, if_neg notNegative, Int.natAbs_natCast, Nat.repr]

/-- A value as it is shown, unless a number in it is too long to be written. -/
def shown? (value : Value) : Option String :=
  if value.writable then some value.shown else none

/-- A text can always be shown. -/
@[simp]
theorem shown?_text (content : String) : shown? (.text content) = some content := by
  simp [shown?, writable, shown]

/-! ## Parts -/

/-- The number that a value amounts to in arithmetic. -/
def amount? : Value → Option Int
  | .number n => some n
  | .truth holds => some (if holds then 1 else 0)
  | _ => none

/-- The parts of a value: the fields of a record, or the characters of a text. -/
def parts? : Value → Option (List Value)
  | .record fields => some fields
  | .text content => some (content.toList.map fun c => .text (String.ofList [c]))
  | _ => none

end Value

end LineBasic
