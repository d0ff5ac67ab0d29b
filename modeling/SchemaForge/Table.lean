import SchemaForge.Column
import SchemaForge.Name.Case

/-!
# Tables

## Main definitions

* `Table` — a named row of columns.
* `Table.modelName` — the stem of every name generated for the table.
* `Table.primaryKey` — the column that generated services look rows up by.
* `Table.insertColumns` — the columns of the insert shape.
* `danglingReferences` — foreign keys that name no table of a list.
-/

namespace SchemaForge

/-- A table of a database schema. -/
structure Table where
  /-- Its name in the schema: an exported binding, or a model. -/
  name : String
  /-- Its name in the database. -/
  tableName : String
  /-- The language its schema is written in. -/
  dialect : Dialect
  /-- Its columns, in the order of the schema. -/
  columns : List Column := []
  deriving DecidableEq, Repr, Inhabited

namespace Table

/-- The stem of every identifier generated for the table. -/
def modelName (t : Table) : String :=
  Name.pascal t.name

/-- The column that services look rows up by: the first of the primary key, else the one
called `id`. -/
def primaryKey (t : Table) : Option Column :=
  (t.columns.find? (·.isPrimaryKey)).or (t.columns.find? (·.name == "id"))

/-- The name of that column; without one, services still look rows up by `id`. -/
def primaryKeyName (t : Table) : String :=
  match t.primaryKey with
  | some c => c.name
  | none => "id"

/-- The columns of the insert shape. -/
def insertColumns (t : Table) : List Column :=
  t.columns.filter fun c => !c.isGeneratedKey

/-- Whether some column holds lists. -/
def hasArrayColumns (t : Table) : Bool :=
  t.columns.any (·.isArray)

/-- Whether some column is unique. -/
def hasUniqueColumns (t : Table) : Bool :=
  t.columns.any (·.isUnique)

/-- The table with a default on every column whose values the database numbers itself. -/
def withImplicitDefaults (t : Table) : Table :=
  { t with
    columns := t.columns.map fun c =>
      if t.dialect.hasImplicitDefault c.typeName then { c with hasDefault := true } else c }

end Table

/-- A field that refers to a model its schema does not declare. -/
structure DanglingReference where
  /-- The model of the field. -/
  model : String
  /-- The field. -/
  field : String
  /-- The undeclared model. -/
  target : String
  deriving DecidableEq, Repr, Inhabited

/-- The report of a dangling reference. -/
def DanglingReference.message (r : DanglingReference) : String :=
  r.model ++ ": field " ++ r.field ++ " references unknown model " ++ r.target

/-- The foreign keys of a list of tables that name no table of the list, in the order of the
tables and their columns. -/
def danglingReferences (tables : List Table) : List DanglingReference :=
  tables.flatMap fun t =>
    t.columns.filterMap fun c =>
      match c.references with
      | some key =>
        if tables.any (·.name == key.table) then none else some ⟨t.name, c.name, key.table⟩
      | none => none

end SchemaForge
