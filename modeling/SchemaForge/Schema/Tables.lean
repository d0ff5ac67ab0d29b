import SchemaForge.Schema.Lookup

/-!
# Tables of a document

Every model is a table.  Its columns are the fields whose type is a scalar or an enumeration and
which are no relations; keys, uniqueness and foreign keys come from the attributes of the model
and of its relations.

## Main definitions

* `Model.keyFields`, `Model.uniqueFields`, `Model.foreignKeys` — what attributes say of fields.
* `Document.tables` — the tables of a document.
-/

namespace SchemaForge.Schema

/-- The scalar types of the schema language. -/
def scalarTypes : List String :=
  ["String", "Int", "Float", "BigInt", "Boolean", "DateTime", "Bytes", "Json", "Decimal"]

/-- What fields are judged by: the declared models and enumerations. -/
structure Scope where
  /-- The names of the models. -/
  models : List String
  /-- The enumerations with their values. -/
  enumerations : List (String × List String)

/-- The declarations of a document.  Of enumerations with one name the last counts, so they are
kept last first. -/
def Document.scope (d : Document) : Scope where
  models := d.modelNames
  enumerations := (d.enumerations.map fun e => (e.name, e.valueNames)).reverse

namespace Scope

/-- The values of an enumeration, if there is one of the name. -/
def values? (s : Scope) (name : String) : Option (List String) :=
  s.enumerations.lookup name

/-- Whether columns may have a type: it is a scalar or an enumeration, and no model. -/
def isColumnType (s : Scope) (name : String) : Bool :=
  !s.models.contains name && (scalarTypes.contains name || (s.values? name).isSome)

end Scope

namespace Named

/-- The database name of a model's table: what `@@map` gives as a text, else the model's own
name. -/
def storageName (m : Model) : String :=
  ((m.attributeNamed? "map").bind fun a => (a.arg? "name").bind Value.text?).getD m.name

/-- The fields of the compound key that the first `@@id` lists. -/
def keyFields (m : Model) : List String :=
  (((m.attributeNamed? "id").bind fun a => a.arg? "fields").map Value.idents).getD []

/-- The fields that a `@@unique` lists alone. -/
def uniqueFields (m : Model) : List String :=
  (m.attributes.filter (·.name == "unique")).flatMap fun a =>
    match (a.arg? "fields").map Value.idents with
    | some [field] => [field]
    | _ => []

end Named

/-- The foreign keys that a field gives: when its type is a declared model, its relation pairs
local fields with fields of that model. -/
def Field.foreignKeys (s : Scope) (f : Field) : List (String × ForeignKey) :=
  match f.type.name?, f.attribute? relationAttribute with
  | some target, some relation =>
    if s.models.contains target then
      match relation.arg? "fields", relation.arg? "references" with
      | some fields, some references =>
        (fields.idents.zip references.idents).map fun (own, other) => (own, ⟨target, other⟩)
      | _, _ => []
    else []
  | _, _ => []

/-- The foreign key of a field of a model: the last one that a relation gives it. -/
def Named.foreignKey? (s : Scope) (m : Model) (field : String) : Option ForeignKey :=
  (m.entries.flatMap (Field.foreignKeys s)).reverse.lookup field

/-- The column that a field of a model is, if it is one. -/
def Field.column? (s : Scope) (m : Model) (f : Field) : Option Column :=
  match f.type.name? with
  | some type =>
    if f.hasAttribute relationAttribute || !s.isColumnType type then none
    else some
      { name := f.name
        typeName := type
        isArray := f.isList
        isNotNull := !f.isOptional
        hasDefault := f.hasAttribute "default" || f.hasAttribute "updatedAt"
        isPrimaryKey := f.hasAttribute "id" || m.keyFields.contains f.name
        isUnique := f.hasAttribute "unique" || m.uniqueFields.contains f.name
        variants := s.values? type
        references := m.foreignKey? s f.name }
  | none => none

/-- The table of a model. -/
def Named.table (s : Scope) (m : Model) : Table where
  name := m.name
  tableName := m.storageName
  dialect := .prisma
  columns := m.entries.filterMap (Field.column? s m)

/-- The tables of a document, one for each model. -/
def Document.tables (d : Document) : List Table :=
  d.models.map (Named.table d.scope)

end SchemaForge.Schema
