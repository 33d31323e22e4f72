import LineBasic.Value.Basic

/-!
# Variables

A store keeps the values of the variables that have been set, in the order in
which they were first set. Names that are the same value name the same variable. A
variable that has not been set counts as zero.
-/

namespace LineBasic.Machine

/-- The values of the variables that have been set. -/
structure Store where
  entries : List (Value × Value)
deriving DecidableEq, Repr

namespace Store

/-- No variable has been set. -/
def empty : Store := ⟨[]⟩

/-- Finds a variable among entries. -/
def lookup (name : Value) : List (Value × Value) → Value
  | [] => .number 0
  | entry :: rest => if entry.1.same name then entry.2 else lookup name rest

/-- Replaces the value of a variable in its place, or adds it at the end. -/
def replace (name value : Value) : List (Value × Value) → List (Value × Value)
  | [] => [(name, value)]
  | entry :: rest =>
    if entry.1.same name then (entry.1, value) :: rest else entry :: replace name value rest

/-- The value of a variable. -/
def get (store : Store) (name : Value) : Value := lookup name store.entries

/-- The store in which a variable has a new value. -/
def set (store : Store) (name value : Value) : Store :=
  ⟨replace name value store.entries⟩

/-- Looking up after a replacement sees the new value at its name and every other
value unchanged. -/
theorem lookup_replace (name other value : Value) (entries : List (Value × Value)) :
    lookup other (replace name value entries) =
      if name.same other then value else lookup other entries := by
  induction entries with
  | nil => simp [replace, lookup]
  | cons entry rest inductionHypothesis =>
    by_cases here : entry.1.same name = true
    · have agree : entry.1.same other = name.same other := by
        rw [Value.same, Value.same, (Value.same_iff _ _).mp here]
      by_cases asked : name.same other = true
      · simp [replace, lookup, here, agree, asked]
      · simp [replace, lookup, here, agree, asked]
    · rw [replace, if_neg here, lookup, inductionHypothesis, lookup]
      by_cases asked : name.same other = true
      · have missed : ¬ entry.1.same other = true := by
          rw [Value.same_iff, ← (Value.same_iff _ _).mp asked, ← Value.same_iff]
          exact here
        rw [if_neg missed, if_pos asked, if_pos asked]
      · rw [if_neg asked, if_neg asked]

/-- Setting a variable changes that variable and no other. -/
@[simp]
theorem get_set (store : Store) (name other value : Value) :
    (store.set name value).get other = if name.same other then value else store.get other :=
  lookup_replace name other value store.entries

end Store

end LineBasic.Machine
