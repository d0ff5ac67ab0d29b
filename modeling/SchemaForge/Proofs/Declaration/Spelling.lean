import SchemaForge.Proofs.Declaration.Closed
import SchemaForge.Proofs.Text.Blank
import SchemaForge.Declaration.Source

/-!
# Declarations as they are written

A table declaration is made from words, from a table name in quotes, and from argument texts that
are closed.  Which texts those are, how the declaration is written from them, and which table it
declares.

## Main definitions

* `IsWord`, `IsArgumentText` — the parts that a declaration is made from.
* `Call` — a call of a method, as it stands in a column.
* `ModifierCall`, `ColumnSpec`, `TableSpec` — what is declared.
* `TableSpec.text`, `TableSpec.table` — the declaration as it is written, and its table.
* `TableSpec.WellFormed` — the parts of the declaration are what they should be.
-/

namespace SchemaForge.Declaration

open Text

/-! ### Parts -/

/-- Characters of a word after its first. -/
def isIdentChar (c : Char) : Bool :=
  c.isAlphanum || c == '_'

/-- A word: a letter of ASCII or an underscore, then such characters and digits. -/
def IsWord (text : List Char) : Prop :=
  ∃ c rest, text = c :: rest ∧ (c.isAlpha || c == '_') = true ∧ ∀ d ∈ rest, isIdentChar d = true

instance (text : List Char) : Decidable (IsWord text) :=
  match text with
  | [] => .isFalse fun ⟨_, _, h, _⟩ => nomatch h
  | c :: rest =>
    decidable_of_iff (((c.isAlpha || c == '_') && rest.all isIdentChar) = true) <| by
      rw [Bool.and_eq_true, List.all_eq_true]
      constructor
      · exact fun h => ⟨c, rest, rfl, h⟩
      · rintro ⟨_, _, ⟨⟩, h⟩
        exact h

/-- What may stand in the parentheses of a call: a closed text in which nothing is exported. -/
structure IsArgumentText (text : List Char) : Prop where
  /-- The text is closed. -/
  closed : IsClosed text
  /-- No part of it looks like the start of a declaration. -/
  notExported : ¬ "export".toList <:+: text

/-- The calls that a modifier of a column is known by. -/
def markers : List String :=
  [".primaryKey(", ".notNull(", ".unique(", ".array(", ".references("] ++ defaultMarkers

/-! ### Calls -/

/-- A call of a method, as it stands in a column. -/
structure Call where
  /-- The method. -/
  name : List Char
  /-- The text between the parentheses. -/
  argument : List Char

/-- The beginning of a call, up to the parenthesis that opens. -/
def callHead (name : List Char) : List Char :=
  '.' :: (name ++ ['('])

/-- A call as it is written. -/
def Call.text (c : Call) : List Char :=
  callHead c.name ++ (c.argument ++ [')'])

/-- A call as it is read inside an entry. -/
def Call.bare (c : Call) : Call :=
  { c with argument := withoutComments c.argument }

/-- Calls in a row. -/
def callsText (calls : List Call) : List Char :=
  calls.flatMap Call.text

/-! ### Specifications -/

/-- A modifier of a column. -/
inductive ModifierCall where
  /-- The column is the primary key. -/
  | primaryKey
  /-- The column is never null. -/
  | notNull
  /-- No two rows agree on the column. -/
  | unique
  /-- The column holds a list. -/
  | array
  /-- The time of writing as the default value. -/
  | defaultNow
  /-- A default value. -/
  | defaultTo (argument : String)
  /-- A function that makes a default value. -/
  | defaultFn (argument : String)
  /-- The column of a table that this one refers to. -/
  | references (table column : String)
  deriving DecidableEq

namespace ModifierCall

/-- The method that a modifier calls. -/
def method : ModifierCall → String
  | primaryKey => "primaryKey"
  | notNull => "notNull"
  | unique => "unique"
  | array => "array"
  | defaultNow => "defaultNow"
  | defaultTo _ => "default"
  | defaultFn _ => "$defaultFn"
  | references _ _ => "references"

/-- What a modifier gives to its method; a reference is given as a function. -/
def argument : ModifierCall → List Char
  | defaultTo argument => argument.toList
  | defaultFn argument => argument.toList
  | references table column =>
    '(' :: ')' :: ' ' :: '=' :: '>' :: ' ' :: (table.toList ++ '.' :: column.toList)
  | _ => []

/-- The call that a modifier is written as. -/
def call (m : ModifierCall) : Call :=
  ⟨m.method.toList, m.argument⟩

/-- Whether the modifier gives the column a default. -/
def isDefault : ModifierCall → Bool
  | defaultNow => true
  | defaultTo _ => true
  | defaultFn _ => true
  | _ => false

/-- The foreign key that the modifier declares. -/
def foreignKey? : ModifierCall → Option ForeignKey
  | references table column => some ⟨table, column⟩
  | _ => none

/-- A given argument is an argument text in which no modifier is called, and a reference is made
of words. -/
def WellFormed : ModifierCall → Prop
  | defaultTo argument => IsArgumentText argument.toList ∧
      ∀ marker ∈ markers, ¬ marker.toList <:+: argument.toList
  | defaultFn argument => IsArgumentText argument.toList ∧
      ∀ marker ∈ markers, ¬ marker.toList <:+: argument.toList
  | references table column => IsWord table.toList ∧ IsWord column.toList
  | _ => True

end ModifierCall

/-- A column to be declared. -/
structure ColumnSpec where
  /-- Its name. -/
  name : String
  /-- The builder it calls. -/
  builder : String
  /-- The text between the builder's parentheses. -/
  arguments : String
  /-- The calls behind the builder, in order. -/
  modifiers : List ModifierCall

namespace ColumnSpec

/-- The calls of a column: its builder and its modifiers. -/
def calls (s : ColumnSpec) : List Call :=
  ⟨s.builder.toList, s.arguments.toList⟩ :: s.modifiers.map ModifierCall.call

/-- The entry of a column: its name, and calls on the builders. -/
def entryText (name : List Char) (calls : List Call) : List Char :=
  name ++ (": t".toList ++ callsText calls)

/-- A column on its line. -/
def text (s : ColumnSpec) : List Char :=
  "  ".toList ++ (entryText s.name.toList s.calls ++ [',', '\n'])

/-- The column that is declared.  A type whose values the database numbers has a default too. -/
def column (s : ColumnSpec) : Column where
  name := s.name
  typeName := s.builder
  isArray := decide (.array ∈ s.modifiers)
  isNotNull := decide (.notNull ∈ s.modifiers)
  hasDefault := s.modifiers.any ModifierCall.isDefault ||
    Dialect.drizzle.hasImplicitDefault s.builder
  isPrimaryKey := decide (.primaryKey ∈ s.modifiers)
  isUnique := decide (.unique ∈ s.modifiers)
  references := s.modifiers.findSome? ModifierCall.foreignKey?

/-- Name and builder are words, and all arguments are argument texts. -/
structure WellFormed (s : ColumnSpec) : Prop where
  /-- The name is a word. -/
  name : IsWord s.name.toList
  /-- The builder is a word. -/
  builder : IsWord s.builder.toList
  /-- The arguments of the builder are an argument text. -/
  arguments : IsArgumentText s.arguments.toList
  /-- The modifiers are well-formed. -/
  modifiers : ∀ m ∈ s.modifiers, m.WellFormed

end ColumnSpec

/-- A table to be declared. -/
structure TableSpec where
  /-- The exported name. -/
  binding : String
  /-- The name of the table in the database. -/
  tableName : String
  /-- Its columns, in order. -/
  columns : List ColumnSpec

namespace TableSpec

/-- The header of a declaration, up to the brace that opens the column object. -/
def headerText (s : TableSpec) : List Char :=
  "export const ".toList ++ (s.binding.toList ++ (" = pgTable(\"".toList ++
    (s.tableName.toList ++ "\", (t) => (\x7b".toList)))

/-- A declaration as it is written: its header, a column on each line, and the brackets that
close. -/
def text (s : TableSpec) : List Char :=
  s.headerText ++ ('\n' :: (s.columns.flatMap ColumnSpec.text ++ "\x7d))\n".toList))

/-- The table that is declared. -/
def table (s : TableSpec) : Table where
  name := s.binding
  tableName := s.tableName
  dialect := .drizzle
  columns := s.columns.map ColumnSpec.column

/-- The binding is a word, the table has a name without quotes, and the columns are
well-formed. -/
structure WellFormed (s : TableSpec) : Prop where
  /-- The binding is a word. -/
  binding : IsWord s.binding.toList
  /-- The table has a name. -/
  named : s.tableName.toList ≠ []
  /-- No quote stands in the name of the table. -/
  unquoted : ∀ c ∈ s.tableName.toList, isNameQuote c = false
  /-- The columns are well-formed. -/
  columns : ∀ c ∈ s.columns, c.WellFormed

end TableSpec

/-! ### Characters of words -/

section

variable {c : Char}

theorem toNat_lt_of_isIdentChar (h : isIdentChar c = true) : c.toNat < 128 := by
  simp only [isIdentChar, Char.isAlphanum, Char.isAlpha, Char.isUpper, Char.isLower, Char.isDigit,
    Bool.or_eq_true, Bool.and_eq_true, decide_eq_true_eq, beq_iff_eq, ge_iff_le,
    UInt32.le_iff_toNat_le] at h
  rcases h with h | rfl
  · simp at h
    omega
  · decide

theorem isWordChar_of_isIdentChar (h : isIdentChar c = true) : isWordChar c = true := by
  rw [isWordChar, if_pos (toNat_lt_of_isIdentChar h)]
  exact h

/-- A character of a word is none that words do not have. -/
theorem ne_of_isWordChar (h : isWordChar c = true) {d : Char} (hd : isWordChar d = false) :
    c ≠ d := by
  rintro rfl
  rw [h] at hd
  cases hd

theorem isBlank_eq_false_of_isWordChar (h : isWordChar c = true) : isBlank c = false := by
  cases hblank : isBlank c with
  | false => rfl
  | true =>
    have hall : ∀ n ∈ blanks, isWordChar (Char.ofNat n) = false := by decide +kernel
    have hc := hall c.toNat (toNat_mem_blanks hblank)
    rw [Char.ofNat_toNat, h] at hc
    cases hc

end

theorem IsWord.isWordChar {word : List Char} (h : IsWord word) :
    ∀ c ∈ word, isWordChar c = true := by
  obtain ⟨c, rest, rfl, hc, hrest⟩ := h
  intro d hd
  refine isWordChar_of_isIdentChar ?_
  rcases List.mem_cons.1 hd with rfl | hd
  · rw [Bool.or_eq_true] at hc
    rcases hc with hc | hc <;> simp [isIdentChar, Char.isAlphanum, hc]
  · exact hrest d hd

theorem IsWord.ne_nil {word : List Char} (h : IsWord word) : word ≠ [] := by
  obtain ⟨c, rest, rfl, -⟩ := h
  exact List.cons_ne_nil c rest

/-- A word has no character that words do not have. -/
theorem IsWord.not_mem {word : List Char} (h : IsWord word) {d : Char}
    (hd : Text.isWordChar d = false) : d ∉ word :=
  fun hmem => ne_of_isWordChar (h.isWordChar d hmem) hd rfl

end SchemaForge.Declaration
