import SchemaForge.Artifact.Plan
import SchemaForge.Declaration.Source
import SchemaForge.FileSystem
import SchemaForge.Schema.Layout
import SchemaForge.Schema.Lookup
import SchemaForge.Schema.Source

/-!
# Why a run stops

## Main definitions

* `RunError` — the causes.
* `RunError.message` — the report of a cause.
* `RunError.refusal?` — the system's refusal behind it, if there is one.
-/

namespace SchemaForge

/-- Why a run stops. -/
inductive RunError where
  /-- There is no schema at any of the usual places. -/
  | schemaNotFound (searched : List Path)
  /-- There is no schema at the given place. -/
  | schemaMissing (path : Path)
  /-- The schema cannot be read from its file. -/
  | unreadable (path : Path) (refusal : OsError)
  /-- A strict reader cannot read a table declaration. -/
  | declaration (unread : Declaration.Unread)
  /-- Foreign keys name tables that are not declared. -/
  | dangling (references : List DanglingReference)
  /-- The text is no schema. -/
  | source (error : Schema.SourceError)
  /-- The schema does not hold together. -/
  | lookup (error : Schema.LookupError)
  /-- The schema cannot be laid out.  No caller is told: the program breaks off. -/
  | layout (fault : Schema.LayoutFault)
  /-- Two models have a file on one path. -/
  | collision (collision : Collision)
  /-- A directory cannot be made. -/
  | directory (path : Path) (refusal : OsError)
  /-- A file cannot be written. -/
  | file (path : Path) (refusal : OsError)
  deriving DecidableEq, Repr, Inhabited

/-- A fault of a path, with the system's refusal. -/
def refused (what : String) (path : Path) (e : OsError) : String :=
  what ++ " " ++ path.text ++ ": " ++ e.text

/-- The report of a cause. -/
def RunError.message : RunError → String
  | schemaNotFound searched =>
    "Could not find a schema file. Searched: " ++ ", ".intercalate (searched.map (·.text))
  | schemaMissing path => "Schema file does not exist: " ++ path.text
  | unreadable path e => refused "Failed to read schema file" path e
  | declaration unread => unread.report.text
  | dangling references => Schema.danglingMessage references
  | source error => error.report.text
  | lookup error => error.message
  | layout fault => fault.message
  | collision c => c.message
  | directory path e => refused "Failed to create directory" path e
  | file path e => refused "Failed to write file" path e

/-- The system's refusal behind a cause, if there is one. -/
def RunError.refusal? : RunError → Option OsError
  | unreadable _ e => some e
  | directory _ e => some e
  | file _ e => some e
  | _ => none

end SchemaForge
