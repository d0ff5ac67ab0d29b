import SchemaForge.Name.Derived
import SchemaForge.Table
import SchemaForge.TypeExpr

/-!
# Code of validation types

A validation type is written as an expression that builds a schema.  Rows hold typed values; forms
hold texts that are decoded to them.

## Main definitions

* `TypeExpr.rowCode` — the schema of a value in a row.
* `TypeExpr.formCode` — the schema of a value in a form.
* `ImportOptions` — the modules that generated code imports from.
* `FieldCode` — a field of a schema, as code.
* `ofLines` — a module's text from its lines.
-/

namespace SchemaForge

/-- The schemas of single values. -/
structure LeafCode where
  /-- The schema of numbers that fit a double. -/
  number : String
  /-- The schema of whole numbers of any size. -/
  bigint : String
  /-- The schema of truth values. -/
  boolean : String
  /-- The schema of points in time. -/
  date : String
  /-- The schema of raw bytes. -/
  bytes : String
  deriving DecidableEq, Repr, Inhabited

/-- The schemas of values that are already typed. -/
def LeafCode.row : LeafCode where
  number := "Schema.Number"
  bigint := "Schema.BigIntFromSelf"
  boolean := "Schema.Boolean"
  date := "Schema.DateFromSelf"
  bytes := "Schema.Uint8ArrayFromSelf"

/-- The schemas of values that arrive as text. -/
def LeafCode.form : LeafCode where
  number := "Schema.NumberFromString"
  bigint := "Schema.BigInt"
  boolean := "Schema.BooleanFromString"
  date := "Schema.Date"
  bytes := "Schema.Uint8ArrayFromBase64"

/-- The code of a literal: the text in single quotes. -/
def literalCode (value : String) : String :=
  "'" ++ value ++ "'"

namespace TypeExpr

/-- The code of a type, given the schemas of single values. -/
def code (leaf : LeafCode) : TypeExpr → String
  | string => "Schema.String"
  | number => leaf.number
  | bigint => leaf.bigint
  | boolean => leaf.boolean
  | date => leaf.date
  | bytes => leaf.bytes
  | unknown => "Schema.Unknown"
  | literals values => "Schema.Literal(" ++ ", ".intercalate (values.map literalCode) ++ ")"
  | array element => "Schema.Array(" ++ code leaf element ++ ")"
  | optional inner true => "Schema.optional(Schema.NullOr(" ++ code leaf inner ++ "))"
  | optional inner false => "Schema.optional(" ++ code leaf inner ++ ")"

/-- The schema of a value in a row. -/
def rowCode (e : TypeExpr) : String :=
  e.code .row

/-- The schema of a value in a form. -/
def formCode (e : TypeExpr) : String :=
  e.code .form

end TypeExpr

/-- The type and the schema of the column that services look rows up by. -/
inductive KeyType where
  /-- Text, and whatever is no number. -/
  | string
  /-- Numbers that fit a double. -/
  | number
  /-- Whole numbers of any size. -/
  | bigint
  deriving DecidableEq, Repr, Inhabited

namespace KeyType

/-- The type of a key. -/
def typeName : KeyType → String
  | string => "string"
  | number => "number"
  | bigint => "bigint"

/-- The schema of a key. -/
def schema : KeyType → String
  | string => "Schema.String"
  | number => "Schema.Number"
  | bigint => "Schema.BigIntFromSelf"

/-- The key type of a column's value: numbers keep their type, all else counts as text. -/
def ofElement : TypeExpr → KeyType
  | .number => number
  | .bigint => bigint
  | _ => string

end KeyType

/-! ### What modules share -/

/-- The modules that generated code imports from. -/
structure ImportOptions where
  /-- What the modules of row schemas have in front. -/
  importBase : String
  /-- The module of the table bindings. -/
  tableImport : String
  /-- The module of the database client. -/
  prismaClientImport : String
  deriving DecidableEq, Repr, Inhabited

/-- The module of a table's row schemas. -/
def ImportOptions.schemaModule (o : ImportOptions) (t : Table) : String :=
  o.importBase ++ "/schemas/" ++ Name.kebab t.modelName ++ "-schemas"

/-- The key type of a table. -/
def Table.keyType (t : Table) : KeyType :=
  match t.primaryKey with
  | some c => KeyType.ofElement (c.elementType t.dialect)
  | none => .string

/-- A field of a schema, as code. -/
structure FieldCode where
  /-- The name of the field. -/
  name : String
  /-- The code of its type. -/
  code : String
  deriving DecidableEq, Repr, Inhabited

/-- A field on its line. -/
def FieldCode.line (f : FieldCode) : String :=
  "  " ++ f.name ++ ": " ++ f.code ++ ","

/-- A text of lines, each with a line feed behind it. -/
def ofLines (lines : List String) : String :=
  String.join (lines.map (· ++ "\n"))

end SchemaForge
