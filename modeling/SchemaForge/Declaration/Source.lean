import SchemaForge.Declaration.Entry
import SchemaForge.Declaration.Pattern
import SchemaForge.Text.Position
import SchemaForge.Table

/-!
# Tables declared in program text

A text is searched for headers from left to right, each search going on behind the header found
last.  A header that stands inside the column object of the table before it declares nothing.
Every other header declares a table, unless its object is never closed.

A strict reader stops at the first header or entry that it cannot read; a lenient one leaves it
out and goes on.

## Main definitions

* `columnOf?` — the column that an entry spells.
* `Match`, `headerMatches` — the headers of a text.
* `Unread`, `Mode` — what could not be read, and what a reader does then.
* `DeclaredTables.ofSource` — the tables of a text.
-/

namespace SchemaForge.Declaration

open Text

/-! ### Columns -/

/-- Calls that make the database supply a missing value. -/
def defaultMarkers : List String :=
  [".default(", ".defaultNow(", ".defaultRandom(", ".$default(", ".$defaultFn(",
    ".generatedAlwaysAsIdentity(", ".generatedByDefaultAsIdentity("]

/-- Whether a call stands in the text behind a builder. -/
def hasCall (modifiers : List Char) (call : String) : Bool :=
  occursIn call.toList modifiers

/-- The column of a name and a builder with the given calls behind it. -/
def columnWith (name builder modifiers : List Char) : Column where
  name := String.ofList name
  typeName := String.ofList builder
  isArray := hasCall modifiers ".array("
  isNotNull := hasCall modifiers ".notNull("
  hasDefault := defaultMarkers.any (hasCall modifiers)
  isPrimaryKey := hasCall modifiers ".primaryKey("
  isUnique := hasCall modifiers ".unique("
  references := (reference? modifiers).map fun (table, column) =>
    ⟨String.ofList table, String.ofList column⟩

/-- The column that an entry spells: a head that calls `param`, closed arguments, and calls. -/
def columnOf? (param text : List Char) : Option Column := do
  let head ← columnHead? text
  guard (head.param = param)
  let (_, behind) ← splitClosing 0 (chunks head.rest)
  return columnWith head.name head.builder (behind.flatMap Chunk.text)

/-! ### Headers -/

/-- A header found in a text. -/
structure Match where
  /-- The header. -/
  header : Header
  /-- Its own text. -/
  text : List Char
  /-- How many characters stand in front of it. -/
  start : Nat
  /-- Where it starts. -/
  position : Position
  deriving DecidableEq, Repr, Inhabited

namespace Match

/-- How many characters stand in front of the column object's inside. -/
def bodyStart (m : Match) : Nat :=
  m.start + m.text.length

/-- Where the column object's inside starts. -/
def bodyPosition (m : Match) : Position :=
  m.position.after m.text

end Match

/-- The headers of a text that has `start` characters in front of it and starts at `p`. -/
def headerMatchesFrom (start : Nat) (p : Position) (text : List Char) : List Match :=
  match text with
  | [] => []
  | c :: rest =>
    match _found : header? (c :: rest) with
    | none => headerMatchesFrom (start + 1) (p.next c) rest
    | some header =>
      let own := (c :: rest).take ((c :: rest).length - header.rest.length)
      ⟨header, own, start, p⟩ ::
        headerMatchesFrom (start + own.length) (p.after own) header.rest
termination_by text.length
decreasing_by
  · simp
  · exact header?_rest_length_lt _found

/-- The headers of a text. -/
def headerMatches (text : List Char) : List Match :=
  headerMatchesFrom 0 .start text

/-! ### What cannot be read -/

/-- Why something was not read. -/
inductive UnreadCause where
  /-- The column object is never closed. -/
  | unterminated
  /-- The entry is no column. -/
  | unrecognised
  deriving DecidableEq, Repr, Inhabited

/-- Something that was not read. -/
structure Unread where
  /-- Why. -/
  cause : UnreadCause
  /-- The table it belongs to. -/
  table : String
  /-- Where it starts. -/
  position : Position
  /-- Its text, with a space for every run of blanks. -/
  text : String
  deriving DecidableEq, Repr, Inhabited

/-- The report of something that was not read. -/
def Unread.report (u : Unread) : SourceReport where
  message :=
    match u.cause with
    | .unterminated => "Unterminated column object for table '" ++ u.table ++ "'"
    | .unrecognised =>
      "Unrecognised column definition in table '" ++ u.table ++ "': " ++ u.text
  position := some u.position

/-- A header whose object is never closed. -/
def Match.unterminated (m : Match) : Unread :=
  ⟨.unterminated, String.ofList m.header.binding, m.position, String.ofList (collapse m.text)⟩

/-- An entry that is no column. -/
def Match.unrecognised (m : Match) (e : Entry) : Unread :=
  ⟨.unrecognised, String.ofList m.header.binding, e.position, String.ofList (collapse e.text)⟩

/-- How a reader treats what it cannot read. -/
inductive Mode where
  /-- It leaves it out. -/
  | lenient
  /-- It refuses the text. -/
  | strict
  deriving DecidableEq, Repr, Inhabited

/-- Go on without something that cannot be read; a strict reader stops there. -/
def Mode.leaveOut (mode : Mode) (u : Unread) : Except Unread Unit :=
  match mode with
  | .lenient => .ok ()
  | .strict => .error u

/-! ### The tables of a text -/

/-- The table of a header with these columns. -/
def Match.tableOf (m : Match) (columns : List Column) : Table :=
  let table : Table :=
    { name := String.ofList m.header.binding
      tableName := String.ofList m.header.tableName
      dialect := .drizzle
      columns := columns }
  table.withImplicitDefaults

/-- The columns among the entries of an object, and the entries that are left out. -/
def Match.readEntries (mode : Mode) (m : Match) :
    List Entry → Except Unread (List Column × List Unread)
  | [] => return ([], [])
  | e :: rest =>
    match columnOf? m.header.param e.text with
    | some column => do
      let (columns, skipped) ← readEntries mode m rest
      return (column :: columns, skipped)
    | none => do
      mode.leaveOut (m.unrecognised e)
      let (columns, skipped) ← readEntries mode m rest
      return (columns, m.unrecognised e :: skipped)

/-- The tables of a text, and what was left out. -/
structure DeclaredTables where
  /-- The tables, in order. -/
  tables : List Table
  /-- What was left out, in order. -/
  skipped : List Unread
  deriving DecidableEq, Inhabited

namespace DeclaredTables

/-- The tables of a row of headers, of which those in front of `resume` stand inside the object
of a table read before. -/
def readFrom (mode : Mode) (resume : Nat) : List Match → Except Unread DeclaredTables
  | [] => return ⟨[], []⟩
  | m :: rest =>
    if m.start < resume then readFrom mode resume rest
    else
      match splitClosing 0 (chunks m.header.rest) with
      | none => do
        mode.leaveOut m.unterminated
        let declared ← readFrom mode resume rest
        return { declared with skipped := m.unterminated :: declared.skipped }
      | some (inside, _) => do
        let (columns, skipped) ← m.readEntries mode (entries m.bodyPosition inside)
        let declared ← readFrom mode (m.bodyStart + (inside.flatMap Chunk.text).length) rest
        return ⟨m.tableOf columns :: declared.tables, skipped ++ declared.skipped⟩

/-- The tables of a source text; a strict reader fails at the first thing it cannot read. -/
def ofSource (mode : Mode) (source : String) : Except Unread DeclaredTables :=
  readFrom mode 0 (headerMatches source.toList)

end DeclaredTables

end SchemaForge.Declaration
