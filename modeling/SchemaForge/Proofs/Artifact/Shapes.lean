import SchemaForge.Artifact.Rows
import Mathlib.Data.List.Forall2
import Mathlib.Data.List.Nodup

/-!
# The shapes of a row

The schema of a declared table with array columns is written in two steps, and put together from
two objects of fields.  What is put together is what would have been written in one step: every
column has its own type, in the order of the columns.  The form of a table asks for the fields of
a new row, and leaves out what a new row may leave out.

## Main definitions

* `assign`, `spread` — one object from two, as object spread makes it.
* `selectShape`, `insertShape` — the fields of a stored row and of a new one.
* `WrapsOptional` — the code of a field that may be missing.

## Main results

* `spread_overrides` — fields that are written again have their second code, at their first place.
* `rows_and_forms_agree` — **the two ways to write a row agree, and the form with both.**
-/

namespace SchemaForge

/-! ### Object spread -/

/-- Give a field to an object: the field of its name has the new code and keeps its place; a field
of a new name comes last. -/
def assign : List FieldCode → FieldCode → List FieldCode
  | [], f => [f]
  | g :: fields, f => if g.name = f.name then f :: fields else g :: assign fields f

/-- The object `{...fields, ...more}`. -/
def spread (fields more : List FieldCode) : List FieldCode :=
  (fields ++ more).foldl assign []

section

variable {fields more done : List FieldCode} {f : FieldCode}

theorem assign_of_not_mem (h : f.name ∉ fields.map (·.name)) : assign fields f = fields ++ [f] := by
  induction fields with
  | nil => rfl
  | cons g fields ih =>
    rw [List.map_cons, List.mem_cons, not_or] at h
    rw [assign, if_neg (fun heq => h.1 heq.symm), ih h.2, List.cons_append]

theorem assign_append_cons {g : FieldCode} (h : f.name ∉ done.map (·.name)) (hg : g.name = f.name)
    (fields : List FieldCode) : assign (done ++ g :: fields) f = done ++ f :: fields := by
  induction done with
  | nil =>
    show assign (g :: fields) f = f :: fields
    rw [assign, if_pos hg]
  | cons d done ih =>
    rw [List.map_cons, List.mem_cons, not_or] at h
    rw [List.cons_append, assign, if_neg (fun heq => h.1 heq.symm), ih h.2, List.cons_append]

/-- An object of fields with different names has them all, in their order. -/
theorem foldl_assign_of_nodup (h : ((done ++ fields).map (·.name)).Nodup) :
    fields.foldl assign done = done ++ fields := by
  induction fields generalizing done with
  | nil => simp
  | cons f fields ih =>
    have hnew : f.name ∉ done.map (·.name) := by
      intro hmem
      rw [List.map_append, List.map_cons] at h
      exact (List.nodup_append.1 h).2.2 _ hmem _ List.mem_cons_self rfl
    have hsplit : done ++ f :: fields = (done ++ [f]) ++ fields := by simp
    rw [List.foldl_cons, assign_of_not_mem hnew, hsplit]
    apply ih
    rwa [← hsplit]

theorem rowFields_cons (type : Column → TypeExpr) (c : Column) (columns : List Column) :
    rowFields type (c :: columns) = ⟨c.name, (type c).rowCode⟩ :: rowFields type columns := rfl

theorem map_name_rowFields (type : Column → TypeExpr) (columns : List Column) :
    (rowFields type columns).map (·.name) = columns.map (·.name) := by
  unfold rowFields
  rw [List.map_map]
  rfl

/-- The fields of some columns, given again to an object that has those of all of them. -/
theorem foldl_assign_filter (done : List FieldCode) {columns : List Column}
    {first second : Column → TypeExpr} {again : Column → Bool}
    (h : (done.map (·.name) ++ columns.map (·.name)).Nodup) :
    (rowFields second (columns.filter again)).foldl assign (done ++ rowFields first columns) =
      done ++ rowFields (fun c => if again c then second c else first c) columns := by
  induction columns generalizing done with
  | nil => rfl
  | cons c columns ih =>
    have hnew : c.name ∉ done.map (·.name) := by
      intro hmem
      exact (List.nodup_append.1 h).2.2 _ hmem _ List.mem_cons_self rfl
    -- behind the field of this column, whichever it is, the others are given
    have hbehind : ∀ f : FieldCode, f.name = c.name →
        (rowFields second (columns.filter again)).foldl assign
            (done ++ f :: rowFields first columns) =
          done ++ f :: rowFields (fun c => if again c then second c else first c) columns := by
      intro f hf
      have hnodup : ((done ++ [f]).map (·.name) ++ columns.map (·.name)).Nodup := by
        rw [List.map_append, List.append_assoc, List.map_singleton, hf]
        exact h
      have hrest := ih _ hnodup
      rwa [List.append_assoc, List.append_assoc] at hrest
    by_cases hagain : again c = true
    · have hassign := assign_append_cons (f := ⟨c.name, (second c).rowCode⟩)
        (g := ⟨c.name, (first c).rowCode⟩) hnew rfl (rowFields first columns)
      rw [List.filter_cons_of_pos hagain, rowFields_cons, rowFields_cons, List.foldl_cons, hassign,
        hbehind _ rfl, rowFields_cons, if_pos hagain]
    · rw [List.filter_cons_of_neg hagain, rowFields_cons, hbehind _ rfl, rowFields_cons,
        if_neg hagain]

end

/-- **Fields that are written again have their second code, at their first place.** -/
theorem spread_overrides {columns : List Column} (h : (columns.map (·.name)).Nodup)
    (first second : Column → TypeExpr) (again : Column → Bool) :
    spread (rowFields first columns) (rowFields second (columns.filter again)) =
      rowFields (fun c => if again c then second c else first c) columns := by
  have hall : (rowFields first columns).foldl assign [] = rowFields first columns := by
    apply foldl_assign_of_nodup
    rw [List.nil_append, map_name_rowFields]
    exact h
  unfold spread
  rw [List.foldl_append, hall]
  exact foldl_assign_filter [] h

/-! ### The shapes of a table -/

/-- The fields of a stored row: every column with its type. -/
def selectShape (t : Table) : List FieldCode :=
  rowFields (·.selectType t.dialect) t.columns

/-- The fields of a new row: the columns that the database does not make up. -/
def insertShape (t : Table) : List FieldCode :=
  rowFields (·.insertType t.dialect) t.insertColumns

section

variable {t : Table}

theorem rowFields_congr {type type' : Column → TypeExpr} {columns : List Column}
    (h : ∀ c ∈ columns, type c = type' c) : rowFields type columns = rowFields type' columns := by
  unfold rowFields
  apply List.map_congr_left
  intro c hc
  rw [h c hc]

/-- A column is written again exactly where the type of its elements is not its own. -/
theorem override_eq (wrap : Column → TypeExpr → TypeExpr) (d : Dialect) (c : Column) :
    (if c.isArray then wrap c (c.baseType d) else wrap c (c.elementType d)) =
      wrap c (c.baseType d) := by
  by_cases harray : c.isArray = true
  · rw [if_pos harray]
  · rw [if_neg harray, Column.baseType_of_not_isArray d (by simpa using harray)]

/-- **Put together, the fields of a stored row have the types of their columns.** -/
theorem spread_select (h : (t.columns.map (·.name)).Nodup) (hoverride : t.overridesArrays = true) :
    spread (RowFields.ofTable t).select (RowFields.ofTable t).selectArrays = selectShape t := by
  show spread (rowFields t.selectFieldType t.columns)
    (rowFields (·.selectType t.dialect) (t.columns.filter (·.isArray))) = _
  rw [spread_overrides h]
  apply rowFields_congr
  intro c _
  show (if c.isArray then c.selectType t.dialect else t.selectFieldType c) = _
  unfold Table.selectFieldType
  rw [if_pos hoverride]
  exact override_eq Column.wrapSelect t.dialect c

/-- **Put together, the fields of a new row have the types of their columns.** -/
theorem spread_insert (h : (t.columns.map (·.name)).Nodup) (hoverride : t.overridesArrays = true) :
    spread (RowFields.ofTable t).insert (RowFields.ofTable t).insertArrays = insertShape t := by
  have harrays : t.arrayColumns.filter (fun c => !c.isGeneratedKey) =
      t.insertColumns.filter (·.isArray) := by
    unfold Table.arrayColumns Table.insertColumns
    exact List.filter_comm ..
  have hnodup : (t.insertColumns.map (·.name)).Nodup :=
    h.sublist (List.filter_sublist.map _)
  show spread (rowFields t.insertFieldType t.insertColumns)
    (rowFields (·.insertType t.dialect) (t.arrayColumns.filter fun c => !c.isGeneratedKey)) = _
  rw [harrays, spread_overrides hnodup]
  apply rowFields_congr
  intro c _
  show (if c.isArray then c.insertType t.dialect else t.insertFieldType c) = _
  unfold Table.insertFieldType
  rw [if_pos hoverride]
  exact override_eq Column.wrapInsert t.dialect c

/-! ### The lines of a module of row schemas -/

/-- In these lines, the schema of some rows is put together from two objects of fields. -/
structure IsSpreadOf (lines : List String) (rows : String) (fields arrays : List FieldCode) :
    Prop where
  /-- The first object. -/
  fields : fieldsConstantLines (rows ++ "Fields") fields <:+: lines
  /-- The second object. -/
  arrays : fieldsConstantLines (rows ++ "ArrayFields") arrays <:+: lines
  /-- The schema of both. -/
  schema : overrideLines (rows ++ "Schema") (rows ++ "Fields") (rows ++ "ArrayFields") <:+: lines

theorem rowLines_of_overridesArrays (hoverride : t.overridesArrays = true) :
    rowLines t =
      let select := "select" ++ t.modelName
      let insert := "insert" ++ t.modelName
      let f := RowFields.ofTable t
      [ ["import \x7b Schema \x7d from 'effect'", ""],
        fieldsConstantLines (select ++ "Fields") f.select,
        fieldsConstantLines (insert ++ "Fields") f.insert,
        ["// Array columns, typed by element in the fields above"],
        fieldsConstantLines (select ++ "ArrayFields") f.selectArrays,
        fieldsConstantLines (insert ++ "ArrayFields") f.insertArrays,
        overrideLines (select ++ "Schema") (select ++ "Fields") (select ++ "ArrayFields"),
        overrideLines (insert ++ "Schema") (insert ++ "Fields") (insert ++ "ArrayFields"),
        rowTypeLines t.modelName ].flatten := by
  unfold rowLines schemaLines
  rw [if_pos (show (RowFields.ofTable t).overridden = true from hoverride)]
  simp only [List.flatten_cons, List.flatten_nil, List.append_nil, List.append_assoc]
  rfl

theorem rowLines_of_not_overridesArrays (hplain : t.overridesArrays = false) :
    rowLines t =
      [ ["import \x7b Schema \x7d from 'effect'", ""],
        structLines ("select" ++ t.modelName ++ "Schema") (selectShape t),
        structLines ("insert" ++ t.modelName ++ "Schema") (insertShape t),
        rowTypeLines t.modelName ].flatten := by
  have hselect : (RowFields.ofTable t).select = selectShape t := by
    apply rowFields_congr
    intro c _
    exact if_neg (by simp [hplain])
  have hinsert : (RowFields.ofTable t).insert = insertShape t := by
    apply rowFields_congr
    intro c _
    exact if_neg (by simp [hplain])
  unfold rowLines schemaLines
  have hnone : ¬ (RowFields.ofTable t).overridden = true := by
    simp [RowFields.ofTable, hplain]
  rw [if_neg hnone, hselect, hinsert]
  simp only [List.flatten_cons, List.flatten_nil, List.append_nil, List.append_assoc]
  rfl

theorem structLines_infix_formLines (t : Table) :
    structLines (Name.camel t.modelName ++ "FormSchema") (formFields t) <:+: formLines t := by
  have hname : "FormSchema = Schema.Struct(\x7b" = "FormSchema" ++ " = Schema.Struct(\x7b" := by
    decide
  have hopen : "export const " ++ Name.camel t.modelName ++ "FormSchema = Schema.Struct(\x7b" =
      "export const " ++ (Name.camel t.modelName ++ "FormSchema") ++ " = Schema.Struct(\x7b" := by
    rw [hname]
    simp only [String.append_assoc]
  refine ⟨["import \x7b Schema \x7d from 'effect'", ""],
    [ s!"export type {t.modelName}FormInput = typeof {Name.camel t.modelName}FormSchema.Encoded",
      s!"export type {t.modelName}FormValues = typeof {Name.camel t.modelName}FormSchema.Type" ],
    ?_⟩
  unfold structLines formLines
  simp only [toString, hopen, List.append_assoc, List.cons_append, List.nil_append]

theorem isSpreadOf_select (hoverride : t.overridesArrays = true) :
    IsSpreadOf (rowLines t) ("select" ++ t.modelName) (RowFields.ofTable t).select
      (RowFields.ofTable t).selectArrays := by
  rw [rowLines_of_overridesArrays hoverride]
  constructor <;> apply List.infix_of_mem_flatten <;> simp

theorem isSpreadOf_insert (hoverride : t.overridesArrays = true) :
    IsSpreadOf (rowLines t) ("insert" ++ t.modelName) (RowFields.ofTable t).insert
      (RowFields.ofTable t).insertArrays := by
  rw [rowLines_of_overridesArrays hoverride]
  constructor <;> apply List.infix_of_mem_flatten <;> simp

end

/-! ### Fields that may be missing -/

/-- The code is that of a field that may be missing. -/
def WrapsOptional (code : String) : Prop :=
  ∃ inner, code = "Schema.optional(" ++ inner ++ ")"

/-- The character behind the name of the library, which tells its schemas apart. -/
def schemaMark (code : String) : Option Char :=
  code.toList[7]?

theorem schemaMark_append {lead : String} (h : 7 < lead.toList.length) (rest : String) :
    schemaMark (lead ++ rest) = schemaMark lead := by
  unfold schemaMark
  rw [String.toList_append, List.getElem?_append_left h]

theorem WrapsOptional.schemaMark_eq {code : String} (h : WrapsOptional code) :
    schemaMark code = some 'o' := by
  obtain ⟨inner, rfl⟩ := h
  rw [String.append_assoc, schemaMark_append (by decide)]
  decide

theorem wrapsOptional_code (leaf : LeafCode) (inner : TypeExpr) (nullable : Bool) :
    WrapsOptional ((TypeExpr.optional inner nullable).code leaf) := by
  cases nullable with
  | false => exact ⟨inner.code leaf, rfl⟩
  | true =>
    refine ⟨"Schema.NullOr(" ++ inner.code leaf ++ ")", ?_⟩
    have hopen : "Schema.optional(Schema.NullOr(" = "Schema.optional(" ++ "Schema.NullOr(" := by
      decide
    have hclose : "))" = ")" ++ ")" := by decide
    show "Schema.optional(Schema.NullOr(" ++ inner.code leaf ++ "))" = _
    rw [hopen, hclose]
    simp only [String.append_assoc]

/-- The code of a type that is not wrapped starts otherwise. -/
theorem not_wrapsOptional_code {leaf : LeafCode} (hleaf : leaf = .row ∨ leaf = .form)
    {e : TypeExpr} (h : ∀ inner nullable, e ≠ .optional inner nullable) :
    ¬ WrapsOptional (e.code leaf) := by
  intro hwraps
  have hmark := hwraps.schemaMark_eq
  revert hmark
  cases e with
  | optional inner nullable => exact absurd rfl (h inner nullable)
  | literals values =>
    show schemaMark ("Schema.Literal(" ++ _ ++ ")") ≠ _
    rw [String.append_assoc, schemaMark_append (by decide)]
    decide
  | array element =>
    show schemaMark ("Schema.Array(" ++ _ ++ ")") ≠ _
    rw [String.append_assoc, schemaMark_append (by decide)]
    decide
  | _ => rcases hleaf with rfl | rfl <;> decide

section

variable {d : Dialect} {c : Column}

theorem baseType_ne_optional (d : Dialect) (c : Column) (inner : TypeExpr) (nullable : Bool) :
    c.baseType d ≠ .optional inner nullable := by
  have hbuilder : ∀ name, builderType name ≠ .optional inner nullable := by
    intro name
    unfold builderType
    split <;> simp
  have hscalar : ∀ name, scalarType name ≠ .optional inner nullable := by
    intro name
    unfold scalarType
    split <;> simp
  unfold Column.baseType Column.elementType
  split
  · simp
  · split
    · simp
    · cases d with
      | drizzle => exact hbuilder c.typeName
      | prisma => exact hscalar c.typeName

theorem wrapsOptional_insertType_iff :
    WrapsOptional (c.insertType d).rowCode ↔ c.isInsertOptional = true := by
  unfold Column.insertType Column.wrapInsert
  by_cases hoptional : c.isInsertOptional = true
  · rw [if_pos hoptional]
    exact iff_of_true (wrapsOptional_code _ _ _) hoptional
  · rw [if_neg hoptional]
    exact iff_of_false (not_wrapsOptional_code (.inl rfl) (baseType_ne_optional d c)) hoptional

theorem wrapsOptional_formType_iff :
    WrapsOptional (c.formType d).formCode ↔ c.isInsertOptional = true := by
  unfold Column.formType
  by_cases hoptional : c.isInsertOptional = true
  · rw [if_pos hoptional]
    exact iff_of_true (wrapsOptional_code _ _ _) hoptional
  · rw [if_neg hoptional]
    exact iff_of_false (not_wrapsOptional_code (.inr rfl) (baseType_ne_optional d c)) hoptional

end

/-- **The two ways to write a row agree, and the form with both.**  Where array columns are written
a second time, what is put together are the fields of all columns with their own types, in order;
where they are not, these are the fields that are written.  The form has the fields of a new row,
in order, and leaves out what a new row may leave out. -/
theorem rows_and_forms_agree (t : Table) :
    (t.dialect = .drizzle → (∃ c ∈ t.columns, c.isArray = true) →
      (t.columns.map (·.name)).Nodup →
        let f := RowFields.ofTable t
        IsSpreadOf (rowLines t) ("select" ++ t.modelName) f.select f.selectArrays ∧
          spread f.select f.selectArrays = selectShape t ∧
          IsSpreadOf (rowLines t) ("insert" ++ t.modelName) f.insert f.insertArrays ∧
          spread f.insert f.insertArrays = insertShape t) ∧
    (¬ (t.dialect = .drizzle ∧ ∃ c ∈ t.columns, c.isArray = true) →
      structLines ("select" ++ t.modelName ++ "Schema") (selectShape t) <:+: rowLines t ∧
        structLines ("insert" ++ t.modelName ++ "Schema") (insertShape t) <:+: rowLines t) ∧
    structLines (Name.camel t.modelName ++ "FormSchema") (formFields t) <:+: formLines t ∧
    List.Forall₂ (fun form new => form.name = new.name ∧
        (WrapsOptional form.code ↔ WrapsOptional new.code))
      (formFields t) (insertShape t) := by
  have hoverride : t.overridesArrays = true ↔
      t.dialect = .drizzle ∧ ∃ c ∈ t.columns, c.isArray = true := by
    simp [Table.overridesArrays, Table.hasArrayColumns]
  refine ⟨?_, ?_, ?_, ?_⟩
  · intro hdialect harray hnames
    have h := hoverride.2 ⟨hdialect, harray⟩
    exact ⟨isSpreadOf_select h, spread_select hnames h, isSpreadOf_insert h,
      spread_insert hnames h⟩
  · intro hplain
    have h : t.overridesArrays = false := by
      rw [← hoverride] at hplain
      simpa using hplain
    rw [rowLines_of_not_overridesArrays h]
    constructor <;> apply List.infix_of_mem_flatten <;> simp
  · exact structLines_infix_formLines t
  · unfold formFields insertShape rowFields
    rw [List.forall₂_map_left_iff, List.forall₂_map_right_iff, List.forall₂_same]
    intro c _
    exact ⟨rfl, wrapsOptional_formType_iff.trans wrapsOptional_insertType_iff.symm⟩

/-- A table with a generated key, an enumeration, arrays and a field that may be left out. -/
def sampleRows : Table where
  name := "lists"
  tableName := "lists"
  dialect := .drizzle
  columns :=
    [ { name := "id", typeName := "serial", isPrimaryKey := true, hasDefault := true },
      { name := "tags", typeName := "text", isArray := true, isNotNull := true },
      { name := "title", typeName := "text", isNotNull := true, hasDefault := true },
      { name := "kinds", typeName := "kind", isArray := true, variants := some ["a", "b"] } ]

theorem rows_and_forms_agree_sample :
    sampleRows.dialect = .drizzle ∧ (∃ c ∈ sampleRows.columns, c.isArray = true) ∧
      spread (RowFields.ofTable sampleRows).select (RowFields.ofTable sampleRows).selectArrays =
        selectShape sampleRows ∧
      List.Forall₂ (fun form new => form.name = new.name ∧
          (WrapsOptional form.code ↔ WrapsOptional new.code))
        (formFields sampleRows) (insertShape sampleRows) := by
  have harray : ∃ c ∈ sampleRows.columns, c.isArray = true := by decide
  have hnames : (sampleRows.columns.map (·.name)).Nodup := by decide
  obtain ⟨hdeclared, -, -, hform⟩ := rows_and_forms_agree sampleRows
  exact ⟨rfl, harray, (hdeclared rfl harray hnames).2.1, hform⟩

end SchemaForge
