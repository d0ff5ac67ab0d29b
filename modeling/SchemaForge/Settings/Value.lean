import SchemaForge.Text.Escape

/-!
# Layers of settings

Settings come in layers: what the program knows itself, a file, and the environment.  A layer is a
table of values; each value remembers the layer it came from, so that a value of the wrong kind
can be reported with its place.

## Main definitions

* `Origin`, `Scalar`, `LayerValue` — where a value came from, and what it is.
* `LayerValue.merge` — one value under another.
-/

namespace SchemaForge

/-- The layer that a value came from. -/
inductive Origin where
  /-- What the program knows itself. -/
  | builtIn
  /-- A settings file of this name. -/
  | file (name : String)
  /-- The variables of the environment. -/
  | environment
  deriving DecidableEq, Repr, Inhabited

/-- A value without parts. -/
inductive Scalar where
  /-- A text. -/
  | string (s : String)
  /-- A single character in quotes. -/
  | char (c : Char)
  /-- A truth value. -/
  | boolean (b : Bool)
  /-- A whole number of a settings file, or a negative one of the environment. -/
  | signed (n : Int)
  /-- A whole number of the environment that is not negative. -/
  | unsigned (n : Nat)
  /-- A number with a fraction, as it is reported. -/
  | float (text : String)
  deriving DecidableEq, Repr, Inhabited

/-- A value of a layer. -/
inductive LayerValue where
  /-- A value without parts. -/
  | scalar (origin : Origin) (s : Scalar)
  /-- A list. -/
  | list (origin : Origin) (values : List LayerValue)
  /-- Values by name. -/
  | table (origin : Origin) (entries : List (String × LayerValue))
  deriving Inhabited

/-- A text between double quotes, as reports quote it. -/
def quoted (s : String) : String :=
  "\"" ++ Text.escapeString s ++ "\""

/-- A value as reports call it. -/
def Scalar.describe : Scalar → String
  | string s => "string " ++ quoted s
  | char c => "char '" ++ Text.escapeCharLiteral c ++ "'"
  | boolean b => "bool " ++ (if b then "true" else "false")
  | signed n => "signed int \x60" ++ toString n ++ "\x60"
  | unsigned n => "unsigned int \x60" ++ toString n ++ "\x60"
  | float text => "float \x60" ++ text ++ "\x60"

namespace LayerValue

/-- A value as reports call it. -/
def describe : LayerValue → String
  | scalar _ s => s.describe
  | list _ _ => "sequence"
  | table _ _ => "map"

/-- The layer that a value came from. -/
def origin : LayerValue → Origin
  | scalar o _ => o
  | list o _ => o
  | table o _ => o

/-- The values with one more or another under a name. -/
def setEntry (entries : List (String × LayerValue)) (name : String) (v : LayerValue) :
    List (String × LayerValue) :=
  match entries with
  | [] => [(name, v)]
  | (n, w) :: rest => if n = name then (n, v) :: rest else (n, w) :: setEntry rest name v

mutual

/-- One value under another: tables are merged name by name, anything else is replaced.  A merged
table counts as the upper one's. -/
def merge (under : LayerValue) : LayerValue → LayerValue
  | table o upper =>
    match under with
    | table _ lower => table o (mergeEntries lower upper)
    | _ => table o upper
  | upper => upper

/-- The entries of a table under those of another. -/
def mergeEntries (lower : List (String × LayerValue)) :
    List (String × LayerValue) → List (String × LayerValue)
  | [] => lower
  | (name, v) :: rest =>
    let value :=
      match lower.lookup name with
      | some w => merge w v
      | none => v
    mergeEntries (setEntry lower name value) rest

end

/-- The value under a name of a table. -/
def get? : LayerValue → String → Option LayerValue
  | table _ entries, name => entries.lookup name
  | _, _ => none

end LayerValue

end SchemaForge
