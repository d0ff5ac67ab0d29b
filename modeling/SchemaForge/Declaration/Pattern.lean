import SchemaForge.Text.Blank
import SchemaForge.Text.Search
import SchemaForge.Text.WordChar

/-!
# The fixed parts of a table declaration

A declaration opens with a header, every column with a head, and a foreign key with a reference.
Each of the three is a row of words and marks with blanks between them, and is read from left to
right without looking back: wherever a part may be longer, what must follow it cannot belong to
it.

## Main definitions

* `Header`, `header?` — `export const user = pgTable("user", (t) => (` and a brace.
* `ColumnHead`, `columnHead?` — `email: t.text(`
* `reference?` — `.references(() => user.id`
-/

namespace SchemaForge.Declaration

open Text

/-! ### Parts -/

/-- What follows the blanks at the head of a text. -/
def skipBlanks (text : List Char) : List Char :=
  text.dropWhile isBlank

/-- What follows the blanks at the head of a text, which must have one. -/
def skipBlank? : List Char → Option (List Char)
  | c :: rest => if isBlank c then some (skipBlanks rest) else none
  | [] => none

/-- The characters of a class at the head of a text, of which there must be one, and what
follows them. -/
def run? (belongs : Char → Bool) (text : List Char) : Option (List Char × List Char) :=
  match text.takeWhile belongs with
  | [] => none
  | found => some (found, text.dropWhile belongs)

/-- The word at the head of a text, and what follows it. -/
def word? (text : List Char) : Option (List Char × List Char) :=
  run? isWordChar text

/-- What follows blanks and then a mark. -/
def mark? (mark : List Char) (text : List Char) : Option (List Char) :=
  after? mark (skipBlanks text)

/-- What follows one character of a class. -/
def one? (belongs : Char → Bool) : List Char → Option (List Char)
  | c :: rest => if belongs c then some rest else none
  | [] => none

/-- What follows one character of a class, which need not be there. -/
def skipOne (belongs : Char → Bool) : List Char → List Char
  | c :: rest => if belongs c then rest else c :: rest
  | [] => []

theorem skipBlanks_length_le (text : List Char) : (skipBlanks text).length ≤ text.length :=
  (List.dropWhile_sublist _).length_le

theorem length_of_after? {lead text rest : List Char} (h : after? lead text = some rest) :
    rest.length ≤ text.length := by
  rw [← append_of_after? h, List.length_append]
  omega

theorem length_of_mark? {mark text rest : List Char} (h : mark? mark text = some rest) :
    rest.length ≤ text.length :=
  Nat.le_trans (length_of_after? h) (skipBlanks_length_le text)

theorem length_of_skipBlank? {text rest : List Char} (h : skipBlank? text = some rest) :
    rest.length < text.length := by
  cases text with
  | nil => cases h
  | cons c text =>
    rw [skipBlank?] at h
    split at h
    · cases h
      have := skipBlanks_length_le text
      simp only [List.length_cons]
      omega
    · cases h

theorem length_of_run? {belongs : Char → Bool} {text found rest : List Char}
    (h : run? belongs text = some (found, rest)) : rest.length ≤ text.length := by
  rw [run?] at h
  split at h
  · cases h
  · cases h
    exact (List.dropWhile_sublist _).length_le

theorem length_of_one? {belongs : Char → Bool} {text rest : List Char}
    (h : one? belongs text = some rest) : rest.length ≤ text.length := by
  cases text with
  | nil => cases h
  | cons c text =>
    rw [one?] at h
    split at h
    · cases h
      simp
    · cases h

/-! ### The header of a declaration -/

/-- The quotes that may stand around a table name. -/
def isNameQuote (c : Char) : Bool :=
  c == '"' || c == '\'' || c == '\x60'

/-- The header of a table declaration. -/
structure Header where
  /-- The exported name. -/
  binding : List Char
  /-- The name of the table in the database. -/
  tableName : List Char
  /-- The name by which columns call the builders. -/
  param : List Char
  /-- What follows the brace that opens the column object. -/
  rest : List Char
  deriving DecidableEq, Repr, Inhabited

/-- What follows the type that may be declared for a binding, up to and with the equals sign. -/
def skipTypeToEquals? (text : List Char) : Option (List Char) :=
  match after? [':'] text with
  | some type => do
    let (_, rest) ← run? (· ≠ '=') type
    after? ['='] rest
  | none => after? ['='] text

/-- The name of the builders, in parentheses or without. -/
def param? (text : List Char) : Option (List Char × List Char) :=
  match after? ['('] text with
  | some inside => do
    let (param, rest) ← word? (skipBlanks inside)
    return (param, ← mark? [')'] rest)
  | none => word? text

theorem length_of_skipTypeToEquals? {text rest : List Char}
    (h : skipTypeToEquals? text = some rest) : rest.length ≤ text.length := by
  rw [skipTypeToEquals?] at h
  split at h
  · rename_i type hc
    simp only [Option.bind_eq_bind, Option.bind_eq_some_iff] at h
    obtain ⟨⟨t, after⟩, h₁, h₂⟩ := h
    exact Nat.le_trans (length_of_after? h₂)
      (Nat.le_trans (length_of_run? h₁) (length_of_after? hc))
  · exact length_of_after? h

theorem length_of_param? {text param rest : List Char} (h : param? text = some (param, rest)) :
    rest.length ≤ text.length := by
  rw [param?] at h
  split at h
  · rename_i inside hc
    simp only [Option.bind_eq_bind, Option.bind_eq_some_iff, Option.pure_def,
      Option.some.injEq, Prod.mk.injEq] at h
    obtain ⟨⟨w, after⟩, h₁, r, h₂, rfl, rfl⟩ := h
    exact Nat.le_trans (length_of_mark? h₂) (Nat.le_trans (length_of_run? h₁)
      (Nat.le_trans (skipBlanks_length_le inside) (length_of_after? hc)))
  · exact length_of_run? h

/-- The header at the head of a text. -/
def header? (text : List Char) : Option Header := do
  let text ← after? "export".toList text
  let text ← skipBlank? text
  let text ← after? "const".toList text
  let text ← skipBlank? text
  let (binding, text) ← word? text
  let text ← skipTypeToEquals? (skipBlanks text)
  let text ← mark? "pgTable".toList text
  let text ← mark? ['('] text
  let text ← one? isNameQuote (skipBlanks text)
  let (tableName, text) ← run? (fun c => !isNameQuote c) text
  let text ← one? isNameQuote text
  let text ← mark? [','] text
  let (param, text) ← param? (skipBlanks text)
  let text ← mark? "=>".toList text
  let text ← mark? ['('] text
  let text ← mark? ['\x7b'] text
  return ⟨binding, tableName, param, text⟩

/-- What follows a header is shorter than the text it was read from. -/
theorem header?_rest_length_lt {text : List Char} {h : Header} (found : header? text = some h) :
    h.rest.length < text.length := by
  simp only [header?, Option.bind_eq_bind, Option.bind_eq_some_iff, Option.pure_def,
    Option.some.injEq] at found
  obtain ⟨t₁, h₁, t₂, h₂, t₃, h₃, t₄, h₄, ⟨b, t₅⟩, h₅, t₆, h₆, t₇, h₇, t₈, h₈, t₉, h₉, ⟨n, t₁₀⟩,
    h₁₀, t₁₁, h₁₁, t₁₂, h₁₂, ⟨q, t₁₃⟩, h₁₃, t₁₄, h₁₄, t₁₅, h₁₅, t₁₆, h₁₆, rfl⟩ := found
  have e₁ := length_of_after? h₁
  have e₂ := length_of_skipBlank? h₂
  have e₃ := length_of_after? h₃
  have e₄ := length_of_skipBlank? h₄
  have e₅ := length_of_run? h₅
  have e₆ := length_of_skipTypeToEquals? h₆
  have e₇ := length_of_mark? h₇
  have e₈ := length_of_mark? h₈
  have e₉ := length_of_one? h₉
  have e₁₀ := length_of_run? h₁₀
  have e₁₁ := length_of_one? h₁₁
  have e₁₂ := length_of_mark? h₁₂
  have e₁₃ := length_of_param? h₁₃
  have e₁₄ := length_of_mark? h₁₄
  have e₁₅ := length_of_mark? h₁₅
  have e₁₆ := length_of_mark? h₁₆
  have s₆ := skipBlanks_length_le t₅
  have s₉ := skipBlanks_length_le t₈
  have s₁₃ := skipBlanks_length_le t₁₂
  dsimp only at *
  omega

/-! ### The head of a column -/

/-- The quotes that may stand around a column name. -/
def isColumnQuote (c : Char) : Bool :=
  c == '"' || c == '\''

/-- The head of a column. -/
structure ColumnHead where
  /-- The name of the column. -/
  name : List Char
  /-- The name by which it calls its builder. -/
  param : List Char
  /-- The builder. -/
  builder : List Char
  /-- What follows the parenthesis that opens the builder's arguments. -/
  rest : List Char
  deriving DecidableEq, Repr, Inhabited

/-- The column head at the head of a text. -/
def columnHead? (text : List Char) : Option ColumnHead := do
  let (name, text) ← word? (skipOne isColumnQuote text)
  let text ← mark? [':'] (skipOne isColumnQuote text)
  let (param, text) ← word? (skipBlanks text)
  let text ← mark? ['.'] text
  let (builder, text) ← word? (skipBlanks text)
  let text ← mark? ['('] text
  return ⟨name, param, builder, text⟩

/-! ### References -/

/-- Characters of a type name with dots in it. -/
def isTypeChar (c : Char) : Bool :=
  isWordChar c || c == '.'

/-- What follows the type that a function without parameters may be declared to return. -/
def skipReturnType? (text : List Char) : Option (List Char) :=
  match after? [':'] text with
  | some type => do
    let (_, rest) ← run? isTypeChar (skipBlanks type)
    return skipBlanks rest
  | none => some text

/-- The table and the column of the reference at the head of a text. -/
def referenceHere? (text : List Char) : Option (List Char × List Char) := do
  let text ← after? ".references(".toList text
  let text ← mark? ['('] text
  let text ← mark? [')'] text
  let text ← skipReturnType? (skipBlanks text)
  let text ← after? "=>".toList text
  let (table, text) ← word? (skipBlanks text)
  let text ← mark? ['.'] text
  let (column, _) ← word? (skipBlanks text)
  return (table, column)

/-- The first reference in a text. -/
def reference? (text : List Char) : Option (List Char × List Char) :=
  firstSome? referenceHere? text

end SchemaForge.Declaration
