import SchemaForge.Artifact.Code

/-!
# Modules of row schemas and of forms

A table has a select schema, with every column, and an insert schema, without the keys that the
database makes up.  A declared table with array columns is written in two steps: all fields by the
type of one value, and the array columns again by their own type, which override the first.

A form asks for what a new row holds.  Its values arrive as texts, and a field that a new row may
leave out may be left out of the form; a form never holds null.

## Main definitions

* `RowFields` — the fields of the schemas of a table.
* `rowModule` — the text of the module.
* `typesModule` — the text of the module with the names of its types.
* `formFields` — the fields of a table's form.
* `formModule` — the text of the form's module.
-/

namespace SchemaForge

/-- The fields of the schemas of a table. -/
structure RowFields where
  /-- Whether array columns are written a second time. -/
  overridden : Bool
  /-- The fields of the select schema. -/
  select : List FieldCode
  /-- The fields of the insert schema. -/
  insert : List FieldCode
  /-- The array columns of the select schema. -/
  selectArrays : List FieldCode
  /-- The array columns of the insert schema. -/
  insertArrays : List FieldCode
  deriving DecidableEq, Repr, Inhabited

/-- Columns as fields of a row, with the type that each is given. -/
def rowFields (type : Column → TypeExpr) (columns : List Column) : List FieldCode :=
  columns.map fun c => ⟨c.name, (type c).rowCode⟩

namespace Table

/-- Whether the array columns of a table are written a second time. -/
def overridesArrays (t : Table) : Bool :=
  t.dialect == .drizzle && t.hasArrayColumns

/-- The type that a column is given in the select schema. -/
def selectFieldType (t : Table) (c : Column) : TypeExpr :=
  if t.overridesArrays then c.wrapSelect (c.elementType t.dialect) else c.selectType t.dialect

/-- The type that a column is given in the insert schema. -/
def insertFieldType (t : Table) (c : Column) : TypeExpr :=
  if t.overridesArrays then c.wrapInsert (c.elementType t.dialect) else c.insertType t.dialect

/-- The array columns. -/
def arrayColumns (t : Table) : List Column :=
  t.columns.filter (·.isArray)

end Table

/-- The fields of the schemas of a table. -/
def RowFields.ofTable (t : Table) : RowFields where
  overridden := t.overridesArrays
  select := rowFields t.selectFieldType t.columns
  insert := rowFields t.insertFieldType t.insertColumns
  selectArrays := rowFields (·.selectType t.dialect) t.arrayColumns
  insertArrays :=
    rowFields (·.insertType t.dialect) (t.arrayColumns.filter fun c => !c.isGeneratedKey)

/-- A constant that holds fields. -/
def fieldsConstantLines (name : String) (fields : List FieldCode) : List String :=
  [s!"const {name} = \x7b"] ++ fields.map FieldCode.line ++ ["\x7d", ""]

/-- A schema of fields. -/
def structLines (name : String) (fields : List FieldCode) : List String :=
  [s!"export const {name} = Schema.Struct(\x7b"] ++ fields.map FieldCode.line ++ ["\x7d)", ""]

/-- A schema of two constants of fields, of which the second overrides the first. -/
def overrideLines (name first second : String) : List String :=
  [ s!"export const {name} = Schema.Struct(\x7b",
    s!"  ...{first},",
    s!"  ...{second},",
    "\x7d)",
    "" ]

/-- The schemas of a model with the given fields. -/
def schemaLines (model : String) (f : RowFields) : List String :=
  let select := s!"select{model}"
  let insert := s!"insert{model}"
  if f.overridden then
    fieldsConstantLines s!"{select}Fields" f.select ++
    fieldsConstantLines s!"{insert}Fields" f.insert ++
    ["// Array columns, typed by element in the fields above"] ++
    fieldsConstantLines s!"{select}ArrayFields" f.selectArrays ++
    fieldsConstantLines s!"{insert}ArrayFields" f.insertArrays ++
    overrideLines s!"{select}Schema" s!"{select}Fields" s!"{select}ArrayFields" ++
    overrideLines s!"{insert}Schema" s!"{insert}Fields" s!"{insert}ArrayFields"
  else
    structLines s!"{select}Schema" f.select ++ structLines s!"{insert}Schema" f.insert

/-- The types of a model's rows. -/
def rowTypeLines (model : String) : List String :=
  [ s!"export type Select{model} = typeof select{model}Schema.Type",
    s!"export type Insert{model} = typeof insert{model}Schema.Type" ]

/-- The lines of a module of row schemas. -/
def rowLines (t : Table) : List String :=
  ["import \x7b Schema \x7d from 'effect'", ""] ++
    schemaLines t.modelName (RowFields.ofTable t) ++ rowTypeLines t.modelName

/-- The text of a module of row schemas. -/
def rowModule (t : Table) : String :=
  ofLines (rowLines t)

/-- The lines of a module that names the types of a table. -/
def typesLines (o : ImportOptions) (t : Table) : List String :=
  let model := t.modelName
  let schemaModule := o.schemaModule t
  let idType := t.keyType.typeName
  [ s!"import type \x7b Insert{model}, Select{model} \x7d from '{schemaModule}'",
    "",
    s!"export type {model} = Select{model}",
    s!"export type New{model} = Insert{model}",
    s!"export type {model}Update = Partial<New{model}>",
    s!"export type {model}Id = {idType}" ]

/-- The text of a module that names the types of a table. -/
def typesModule (o : ImportOptions) (t : Table) : String :=
  ofLines (typesLines o t)

/-! ### Forms -/

/-- The type of a column in a form. -/
def Column.formType (d : Dialect) (c : Column) : TypeExpr :=
  if c.isInsertOptional then .optional (c.baseType d) false else c.baseType d

/-- The fields of a table's form. -/
def formFields (t : Table) : List FieldCode :=
  t.insertColumns.map fun c => ⟨c.name, (c.formType t.dialect).formCode⟩

/-- The lines of a form module. -/
def formLines (t : Table) : List String :=
  let model := t.modelName
  let camel := Name.camel model
  [ "import \x7b Schema \x7d from 'effect'",
    "",
    s!"export const {camel}FormSchema = Schema.Struct(\x7b" ] ++
  (formFields t).map FieldCode.line ++
  [ "\x7d)",
    "",
    s!"export type {model}FormInput = typeof {camel}FormSchema.Encoded",
    s!"export type {model}FormValues = typeof {camel}FormSchema.Type" ]

/-- The text of a form module. -/
def formModule (t : Table) : String :=
  ofLines (formLines t)

end SchemaForge
