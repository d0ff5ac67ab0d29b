import SchemaForge.TypeExpr

/-!
# Columns

A column with its flags, and the types it has in a stored row (the select shape) and in a row to
be stored (the insert shape).

## Main definitions

* `Column` — one column of a table.
* `Column.selectType`, `Column.insertType` — its type in the two shapes.
-/

namespace SchemaForge

/-- The column that a foreign key names. -/
structure ForeignKey where
  /-- The table, by the name it has in its schema. -/
  table : String
  /-- The column. -/
  column : String
  deriving DecidableEq, Repr, Inhabited

/-- One column of a table. -/
structure Column where
  /-- The name in the schema. -/
  name : String
  /-- The name of its type in its schema language. -/
  typeName : String
  /-- It holds lists of values. -/
  isArray : Bool := false
  /-- It is declared to hold no null. -/
  isNotNull : Bool := false
  /-- The database supplies a missing value. -/
  hasDefault : Bool := false
  /-- It belongs to the primary key. -/
  isPrimaryKey : Bool := false
  /-- No two rows agree in it. -/
  isUnique : Bool := false
  /-- The values it is limited to, when its type is an enumeration. -/
  variants : Option (List String) := none
  /-- What it refers to, when it is a foreign key. -/
  references : Option ForeignKey := none
  deriving DecidableEq, Repr, Inhabited

namespace Column

/-- Whether stored rows may hold null in this column; a key column never does. -/
def isNullable (c : Column) : Bool :=
  !(c.isNotNull || c.isPrimaryKey)

/-- Whether a new row may leave the column out. -/
def isInsertOptional (c : Column) : Bool :=
  c.isNullable || c.hasDefault

/-- Whether the database makes up the key: then a new row never has the column. -/
def isGeneratedKey (c : Column) : Bool :=
  c.isPrimaryKey && c.hasDefault

/-- The type of one value: an enumeration's values, else what the type name maps to. -/
def elementType (d : Dialect) (c : Column) : TypeExpr :=
  match c.variants with
  | some values => .literals values
  | none => d.elementType c.typeName

/-- The type of the column before any wrapping. -/
def baseType (d : Dialect) (c : Column) : TypeExpr :=
  if c.isArray then .array (c.elementType d) else c.elementType d

/-- Wrap a type for the select shape: a nullable column may be missing or null. -/
def wrapSelect (c : Column) (e : TypeExpr) : TypeExpr :=
  if c.isNullable then .optional e true else e

/-- Wrap a type for the insert shape: a column that may be left out accepts null only when
stored rows may hold it. -/
def wrapInsert (c : Column) (e : TypeExpr) : TypeExpr :=
  if c.isInsertOptional then .optional e c.isNullable else e

/-- The type of the column in a stored row. -/
def selectType (d : Dialect) (c : Column) : TypeExpr :=
  c.wrapSelect (c.baseType d)

/-- The type of the column in a row to be stored. -/
def insertType (d : Dialect) (c : Column) : TypeExpr :=
  c.wrapInsert (c.baseType d)

theorem baseType_of_not_isArray {c : Column} (d : Dialect) (h : c.isArray = false) :
    c.baseType d = c.elementType d := by
  simp [baseType, h]

end Column

end SchemaForge
