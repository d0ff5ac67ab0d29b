/-!
# Tables of a settings file

A file is a table of values by name.  Tables grow line by line: a header opens one, and a dotted
key reaches into nested ones.  A table says how it came about, because that decides what may still
be added to it: nothing is set twice, and a table that a header or a value has closed is not
reopened.

## Main definitions

* `Value` — a value of a settings file.
* `Table`, `Node` — a table under construction.
* `TableOf.assign`, `TableOf.openTable`, `TableOf.append` — what a line does to the whole table.
* `tableEntries` — the finished table.
-/

namespace SchemaForge.Toml

/-- A value of a settings file. -/
inductive Value where
  /-- A text. -/
  | string (s : String)
  /-- A whole number. -/
  | integer (n : Int)
  /-- A number with a fraction or an exponent, in its shortest form. -/
  | float (text : String)
  /-- A truth value. -/
  | boolean (b : Bool)
  /-- A date, a time or both. -/
  | time (text : String)
  /-- A list. -/
  | array (values : List Value)
  /-- Values by name. -/
  | table (entries : List (String × Value))
  deriving Inhabited

/-- A table under construction, with nodes `ν`. -/
structure TableOf (ν : Type) where
  /-- It only came about on the way to something inside it. -/
  implicit : Bool
  /-- It came about in a dotted key. -/
  dotted : Bool
  /-- What it holds, in order. -/
  entries : List (String × ν)
  deriving Inhabited

/-- What a table under construction holds under a name. -/
inductive Node where
  /-- A finished value. -/
  | value (v : Value)
  /-- A table. -/
  | table (t : TableOf Node)
  /-- A list of tables, the last one first. -/
  | tables (last : TableOf Node) (earlier : List (TableOf Node))
  deriving Inhabited

/-- A table under construction. -/
abbrev Table := TableOf Node

namespace TableOf

/-- The table at the start of a file or behind a header. -/
def empty : Table := ⟨false, false, []⟩

/-- What a table holds under a name. -/
def get? (t : Table) (name : String) : Option Node :=
  t.entries.lookup name

/-- Entries with another or one more node under a name. -/
def setEntry (name : String) (node : Node) : List (String × Node) → List (String × Node)
  | [] => [(name, node)]
  | (n, old) :: rest =>
    if n = name then (n, node) :: rest else (n, old) :: setEntry name node rest

/-- A table with another or one more node under a name. -/
def set (t : Table) (name : String) (node : Node) : Table :=
  { t with entries := setEntry name node t.entries }

/-- Change the table that a path leads to, making the tables on the way.  Of a list of tables the
path goes into the last.  It does not go into values; a dotted key goes only into tables that
nothing has opened yet. -/
def change (dotted : Bool) (f : Table → Option Table) : List String → Table → Option Table
  | [], t => f t
  | name :: path, t =>
    match t.get? name with
    | none => do return t.set name (.table (← change dotted f path ⟨true, dotted, []⟩))
    | some (.value _) => none
    | some (.table inner) =>
      if dotted && !inner.implicit then none
      else do return t.set name (.table (← change dotted f path inner))
    | some (.tables last earlier) => do
      return t.set name (.tables (← change dotted f path last) earlier)

/-- Set a name in a table that a dotted key with this path has reached: once, and only in a table
that came about in a dotted key if the path is not empty. -/
def assignHere (path : List String) (name : String) (v : Value) (t : Table) : Option Table :=
  if t.dotted == path.isEmpty then none
  else
    match t.get? name with
    | none => some (t.set name (.value v))
    | some _ => none

/-- Set a dotted key in the table that the last header opened. -/
def assign (header path : List String) (name : String) (v : Value) (t : Table) :
    Option Table :=
  change false (change true (assignHere path name v) path) header t

/-- Open the table of a header: one that does not exist, or that came about on the way to a table
inside it. -/
def openTable (path : List String) (name : String) (t : Table) : Option Table :=
  change false (fun parent =>
    match parent.get? name with
    | none => some (parent.set name (.table empty))
    | some (.table inner) =>
      if inner.implicit && !inner.dotted then
        some (parent.set name (.table { inner with implicit := false }))
      else none
    | some _ => none) path t

/-- Add a table to the list of tables of a header. -/
def append (path : List String) (name : String) (t : Table) : Option Table :=
  change false (fun parent =>
    match parent.get? name with
    | none => some (parent.set name (.tables empty []))
    | some (.tables last earlier) => some (parent.set name (.tables empty (last :: earlier)))
    | some _ => none) path t

end TableOf

mutual

/-- The value that a node has become. -/
def Node.toValue : Node → Value
  | .value v => v
  | .table t => .table (tableEntries t)
  | .tables last earlier => .array (tableValues earlier [.table (tableEntries last)])

/-- The values of a table. -/
def tableEntries : Table → List (String × Value)
  | ⟨_, _, entries⟩ => entryValues entries

/-- The values of the entries of a table. -/
def entryValues : List (String × Node) → List (String × Value)
  | [] => []
  | (name, node) :: rest => (name, node.toValue) :: entryValues rest

/-- The values of tables of which the last comes first, in front of later ones. -/
def tableValues : List Table → List Value → List Value
  | [], later => later
  | t :: earlier, later => tableValues earlier (.table (tableEntries t) :: later)

end

end SchemaForge.Toml
