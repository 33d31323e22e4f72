import LineBasic.Program.Listing
import LineBasic.Proofs.WellFormed

/-!
# Listings can be written

A number with more digits than the limit cannot be written down. The numbers in a listing of
tokens or of a program were written by numerals of the source text, which have no more digits
than that, or they are places in the text. So a listing writes them all, as long as the text does
not have more characters than there are numbers to count them.
-/

namespace LineBasic

/-! ## Definitions -/

/-- Whether no number in a token is too long to be written. -/
def Token.writable (token : Token) : Bool :=
  token.kind.tag.writable && token.value.writable && token.line.writable && token.column.writable

namespace Outline

mutual

/-- Whether no number in an outline is too long to be written. -/
def writable : Outline → Bool
  | .value content => content.writable
  | .record fields => writableAll fields
  | .sequence items => writableAll items

/-- Whether every outline of a list can be written. -/
def writableAll : List Outline → Bool
  | [] => true
  | first :: rest => writable first && writableAll rest

end

/-- A list of outlines can be written down if each of them can. -/
theorem writableAll_iff {outlines : List Outline} :
    writableAll outlines = true ↔ ∀ outline ∈ outlines, outline.writable = true := by
  induction outlines with
  | nil => simp [writableAll]
  | cons first rest inductionHypothesis => simp [writableAll, inductionHypothesis]

/-- The outline of a value can be written down if the value can. -/
@[simp]
theorem writable_value (content : Value) : (Outline.value content).writable = content.writable := by
  rw [writable]

/-- A sequence can be written down if each of its items can. -/
@[simp]
theorem writable_sequence (items : List Outline) :
    (sequence items).writable = true ↔ ∀ item ∈ items, item.writable = true := by
  rw [writable, writableAll_iff]

/-- A tag can be written. -/
@[simp]
theorem writable_tagged (tag : String) (fields : List Outline) :
    (tagged tag fields).writable = true ↔ ∀ field ∈ fields, field.writable = true := by
  rw [tagged, writable, writableAll_iff]
  simp [Value.writable]

end Outline

/-! ## Programs -/

section Programs

open Outline

/-- A numeral is short enough to be written down. -/
theorem Value.IsNumeral.writable {value : Value} (numeral : value.IsNumeral) :
    value.writable = true := by
  obtain ⟨n, rfl, short⟩ := numeral
  simpa [Value.writable] using short

/-- A name can be written down. -/
theorem Value.IsName.writable {value : Value} (name : value.IsName) : value.writable = true := by
  obtain ⟨letter, rfl, -⟩ := name
  rfl

/-- A string can be written down. -/
theorem Value.IsString.writable {value : Value} (isString : value.IsString) :
    value.writable = true := by
  obtain ⟨content, rfl, -⟩ := isString
  rfl

/-- A well-formed expression can be written down, since its numerals can. -/
theorem Expr.WellFormed.writable {expr : Expr} (wellFormed : expr.WellFormed) :
    expr.outline.writable = true := by
  induction expr with
  | constant value => simpa [outline] using Value.IsNumeral.writable wellFormed
  | var name => simpa [outline] using Value.IsName.writable wellFormed
  | binary op left right leftWritable rightWritable =>
    obtain ⟨leftFormed, rightFormed⟩ := wellFormed
    simp [outline, Value.writable, leftWritable leftFormed, rightWritable rightFormed]
  | voided operator left right => exact wellFormed.elim
  | faulty fault => exact wellFormed.elim

/-- A well-formed item to print can be written down. -/
theorem PrintItem.WellFormed.writable {item : PrintItem} (wellFormed : item.WellFormed) :
    item.outline.writable = true := by
  cases item with
  | text content => simpa [outline] using Value.IsString.writable wellFormed
  | value expr => exact Expr.WellFormed.writable wellFormed

/-- A well-formed statement can be written down, since its parts can. -/
theorem Stmt.WellFormed.writable {stmt : Stmt} (wellFormed : stmt.WellFormed) :
    stmt.outline.writable = true := by
  cases stmt with
  | assign name value => simp [outline, wellFormed.1.writable, wellFormed.2.writable]
  | print items =>
    have each : ∀ item ∈ items, item.outline.writable = true := fun item member =>
      (wellFormed.2 item member).writable
    simpa [outline] using each
  | input name => simpa [outline] using Value.IsName.writable wellFormed
  | branch condition target =>
    obtain ⟨⟨left, ⟨which, known⟩, right⟩, numeral⟩ := wellFormed
    simp [outline, Condition.outline, known, Relation.tag, Value.writable, left.writable,
      right.writable, numeral.writable]
  | goto target => simpa [outline] using Value.IsNumeral.writable wellFormed
  | gosub target => simpa [outline] using Value.IsNumeral.writable wellFormed
  | ret => rfl
  | stop => rfl
  | remark => rfl
  | faulty fault => exact wellFormed.elim

/-- Every line of a well-formed program can be listed. -/
theorem Program.WellFormed.writable {program : Program} (wellFormed : program.WellFormed)
    {line : Line} (member : line ∈ program) : line.outline.writable = true := by
  have formed := wellFormed line member
  have each : ∀ stmt ∈ line.statements, stmt.outline.writable = true := fun stmt isStmt =>
    (formed.statements stmt isStmt).writable
  simpa [Line.outline, formed.number.writable] using each

end Programs

/-! ## Tokens -/

namespace Token

/-- The tags of kinds with a fixed spelling can be written down. -/
theorem fixed_writable : ∀ entry ∈ fixedSpellings, entry.1.tag.writable = true := by decide

/-- What a lexeme of a text makes can be written. -/
theorem Lexeme.Spelled.writable {lexeme : Lexeme} {text : List Char} {made : Kind × Value}
    (spelled : lexeme.Spelled text) (short : lexeme.excess? = none)
    (makes : lexeme.content? = some made) :
    made.1.tag.writable = true ∧ made.2.writable = true := by
  have lexical := spelled.lexical short makes
  cases lexeme with
  | blanks count => cases makes
  | number digits =>
    cases makes
    exact ⟨rfl, Value.IsNumeral.writable lexical⟩
  | fixed kind spelling =>
    cases makes
    exact ⟨fixed_writable _ spelled.1, rfl⟩
  | remark body | identifier letter | string body =>
    cases makes
    exact ⟨rfl, rfl⟩

/-- The tokens cut from a text can be written if the last line and the last offset can. A lexeme
that ends a line takes a character, so there are no more lines than that. -/
theorem scanFrom_writable {source text : List Char} {passing offset line : Nat}
    {tokens : List Token} (scanned : scanFrom source passing text offset line = .ok tokens)
    (lines : line + text.length < Numeral.writeBound)
    (columns : offset + text.length < Numeral.writeBound) :
    ∀ token ∈ tokens, token.writable = true := by
  fun_induction scanFrom source passing text offset line generalizing tokens with
  | case1 passing offset line =>
    cases scanned
    simpa [endOfFile, writable, Kind.tag, Value.writable] using And.intro lines columns
  | case2 passing c rest offset line inductionHypothesis =>
    rw [List.length_cons] at lines columns
    exact inductionHypothesis scanned (by omega) (by omega)
  | case3 => cases scanned
  | case4 => cases scanned
  | case5 c rest offset line lexeme found short inductionHypothesis =>
    have ends : lexeme.lineEnds ≤ 1 := by
      unfold Lexeme.lineEnds
      split <;> omega
    rw [List.length_cons] at lines columns
    generalize scanFrom source _ rest _ _ = outcome at scanned inductionHypothesis
    cases outcome with
    | error error => cases scanned
    | ok others =>
      cases scanned
      have later := inductionHypothesis rfl (by omega) (by omega)
      unfold Lexeme.consToken
      cases makes : lexeme.content? with
      | none => exact later
      | some made =>
        obtain ⟨spelling, _, -, spelled, -⟩ := lexeme?_eq_some_iff.mp found
        obtain ⟨kind, value⟩ := spelled.writable short makes
        have place : line < Numeral.writeBound ∧ offset < Numeral.writeBound := by omega
        refine List.forall_mem_cons.mpr ⟨?_, later⟩
        simp [writable, kind, value, Value.writable, place]

/-- The tokens of a text can be listed. -/
theorem scan_writable {source : String} {tokens : List Token} (scanned : scan source = .ok tokens)
    (short : source.length + 1 < Numeral.writeBound) : ∀ token ∈ tokens, token.writable = true :=
  scanFrom_writable scanned (by rwa [String.length_toList, Nat.add_comm])
    (by rw [String.length_toList]; omega)

end Token

end LineBasic
