import SchemaForge.Run.Error
import SchemaForge.Settings.Basic

/-!
# The schema of a run

Every run finds a schema and reads it.  The formatter lays the schema out again; what it cannot lay
out it leaves as it was.

## Main definitions

* `Run` — a program on a file system that may stop.
* `Run.locate`, `Run.read` — find the schema, and read it.
* `FormatReport` — what a run of the formatter did.
* `Run.format` — the laid-out text of a schema, written back if that is asked for and new.
-/

namespace SchemaForge

/-- A program on a file system that may stop.  What it did to the file system before that stays. -/
abbrev Run (m : Type → Type) (α : Type) : Type :=
  ExceptT RunError m α

/-- What a run of the formatter did. -/
structure FormatReport where
  /-- The schema that was read. -/
  schema : Path
  /-- Its text, laid out. -/
  text : String
  /-- Whether the file had another text. -/
  changed : Bool
  deriving DecidableEq, Repr, Inhabited

namespace Run

variable {m : Type → Type} [Monad m]

/-- Stop unless a computation without effects succeeds. -/
def ofExcept {α : Type} (outcome : Except RunError α) : Run m α :=
  ExceptT.mk (pure outcome)

/-- Stop unless a call succeeds. -/
def orStop {α : Type} (cause : OsError → RunError) (call : m (Except OsError α)) : Run m α := do
  match ← (call : m _) with
  | .ok a => return a
  | .error e => throw (cause e)

variable [FileSystem m]

/-- The first path of a list with a file. -/
def firstFile? : List Path → m (Option Path)
  | [] => return none
  | p :: rest => do
    if ← FileSystem.isFile p then return some p
    firstFile? rest

/-- Find the schema: at the given place, or else at the first of the usual places that has a
file. -/
def locate (root : Path) (given : Option Path) (candidates : List Path) : Run m Path := do
  match given with
  | some p =>
    let path := root.resolve p
    if ← (FileSystem.isFile path : m Bool) then return path
    throw (.schemaMissing path)
  | none =>
    let searched := candidates.map root.resolve
    match ← (firstFile? searched : m _) with
    | some path => return path
    | none => throw (.schemaNotFound searched)

/-- Read the text of a schema. -/
def read (path : Path) : Run m String :=
  orStop (.unreadable path) (FileSystem.readText path)

/-- The laid-out text of a schema.  The file is written only if that is asked for and its text
changes. -/
def format (root : Path) (s : Settings) (given : Option Path) (write : Bool) :
    Run m FormatReport := do
  let schema ← locate root given s.prisma.candidates
  let source ← read schema
  let document ← ofExcept ((Schema.Document.ofCheckedSource source).mapError .source)
  let text ← ofExcept (document.text.mapError .layout)
  let changed := text != source
  if write && changed then
    orStop (.file schema) (FileSystem.writeText schema text)
  return { schema, text, changed }

end Run

end SchemaForge
