/-!
# Validation types

A column of a database schema has a type of its schema language; a generated validation schema
has a type of this small language.  The map between them is total: a type name that no rule
covers becomes `TypeExpr.unknown`.

## Main definitions

* `Dialect` — the two schema languages.
* `TypeExpr` — the types of validation schemas.
* `Dialect.elementType`, `Dialect.mapType` — the map from type names.
-/

namespace SchemaForge

/-- The schema language that a table was written in. -/
inductive Dialect where
  /-- Table declarations with column builders. -/
  | drizzle
  /-- Models of the schema description language. -/
  | prisma
  deriving DecidableEq, Repr, Inhabited

/-- A type of a validation schema. -/
inductive TypeExpr where
  /-- Text. -/
  | string
  /-- Numbers that fit a double. -/
  | number
  /-- Whole numbers of any size. -/
  | bigint
  /-- Truth values. -/
  | boolean
  /-- Points in time. -/
  | date
  /-- Raw bytes. -/
  | bytes
  /-- No rule covers the type. -/
  | unknown
  /-- One of a fixed list of texts. -/
  | literals (values : List String)
  /-- A list of values. -/
  | array (element : TypeExpr)
  /-- A field that may be missing; a `nullable` one may also be null. -/
  | optional (inner : TypeExpr) (nullable : Bool)
  deriving DecidableEq, Repr, Inhabited

namespace TypeExpr

/-- The type without the wrappers that let a field be missing. -/
def required : TypeExpr → TypeExpr
  | optional inner _ => required inner
  | other => other

/-- Whether no rule covers the type. -/
def isUnknown : TypeExpr → Bool
  | unknown => true
  | _ => false

@[simp] theorem required_optional (inner : TypeExpr) (nullable : Bool) :
    (optional inner nullable).required = inner.required := rfl

@[simp] theorem isUnknown_eq_true_iff (e : TypeExpr) : e.isUnknown = true ↔ e = unknown := by
  cases e <;> simp [isUnknown]

end TypeExpr

/-- The validation type of a column builder. -/
def builderType : String → TypeExpr
  | "text" | "varchar" | "char" | "citext" | "uuid" => .string
  | "numeric" | "decimal" | "time" | "interval" => .string
  | "integer" | "smallint" | "serial" | "smallserial" | "real" | "doublePrecision" => .number
  | "bigint" | "bigserial" => .bigint
  | "boolean" => .boolean
  | "timestamp" | "date" => .date
  | _ => .unknown

/-- The validation type of a scalar type of the schema description language. -/
def scalarType : String → TypeExpr
  | "String" => .string
  | "Int" | "Float" => .number
  | "BigInt" => .bigint
  | "Boolean" => .boolean
  | "DateTime" => .date
  | "Bytes" => .bytes
  | _ => .unknown

namespace Dialect

/-- The validation type of a type name, for one value. -/
def elementType : Dialect → String → TypeExpr
  | drizzle => builderType
  | prisma => scalarType

/-- The validation type of a type name, for one value or a list of values. -/
def mapType (d : Dialect) (name : String) (isArray : Bool) : TypeExpr :=
  if isArray then .array (d.elementType name) else d.elementType name

/-- Whether the database itself numbers the rows of a column of this type. -/
def hasImplicitDefault : Dialect → String → Bool
  | drizzle, name => ["serial", "smallserial", "bigserial"].contains name
  | prisma, _ => false

end Dialect

end SchemaForge
