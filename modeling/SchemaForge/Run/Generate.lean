import SchemaForge.Run.Schema
import SchemaForge.Schema.Tables

/-!
# Generating files from a schema

All files of a run are planned before the first is written, so a schema that cannot be read or does
not hold together leaves the file system as it was.

## Main definitions

* `GenerateRequest`, `GenerateReport` — what a run is asked for, and what it did.
* `Settings.layoutFor` — where the files of a run go.
* `Run.writeFiles` — write planned files.
* `Run.generateDrizzle`, `Run.generatePrisma` — a run on table declarations, and one on the
  schema description language.
-/

namespace SchemaForge

/-- What a run is asked for; what is left open follows the settings. -/
structure GenerateRequest where
  /-- The schema. -/
  schema : Option Path := none
  /-- Where schemas, types and forms go. -/
  output : Option Path := none
  /-- Where services go. -/
  services : Option Path := none
  deriving DecidableEq, Repr, Inhabited

/-- What a run did. -/
structure GenerateReport where
  /-- The schema that was read. -/
  schema : Path
  /-- How many tables it has. -/
  tableCount : Nat
  /-- The files that were written, in order. -/
  files : List GeneratedFile
  /-- What was left out of the schema. -/
  skipped : List Declaration.Unread
  deriving DecidableEq, Inhabited

/-! ### Layout -/

/-- Where the files of a run go: where the request says, or else where the settings say for a
schema at its place.  With `follow`, services go below a requested directory of schemas. -/
def Settings.layoutFor (s : Settings) (source : SourceSettings) (follow : Bool) (root : Path)
    (request : GenerateRequest) (schema : Path) : Layout :=
  let workspace := s.isWorkspaceSchema schema
  let output := if workspace then source.workspaceOutput else source.output
  let services := if workspace then source.workspaceServices else source.services
  let schemas := root.resolve (request.output.getD output)
  { schemas
    services :=
      match request.services, request.output with
      | some p, _ => root.resolve p
      | none, some _ => if follow then schemas.child "services" else root.resolve services
      | none, none => root.resolve services }

/-- How the files of a run are generated. -/
def Settings.emitOptions (s : Settings) (layout : Layout) : EmitOptions where
  imports := s.imports
  layout := layout
  forms := s.emitForms

namespace Run

variable {m : Type → Type} [Monad m] [FileSystem m]

/-! ### Writing -/

/-- Write a planned file into its directory, which is made if it is missing. -/
def writeFile (f : GeneratedFile) : Run m Unit := do
  match f.path.parent? with
  | some parent => orStop (.directory parent) (FileSystem.createDirectories parent)
  | none => pure ()
  orStop (.file f.path) (FileSystem.writeText f.path f.content)

/-- Write planned files, in order. -/
def writeFiles : List GeneratedFile → Run m Unit
  | [] => return ()
  | f :: rest => do
    writeFile f
    writeFiles rest

/-- Plan the files of a list of tables and write them. -/
def emit (o : EmitOptions) (tables : List Table) : Run m (List GeneratedFile) := do
  match plan o tables with
  | .ok files =>
    writeFiles files
    return files
  | .error c => throw (.collision c)

/-- Write the files of a schema's tables, if it has any, and report. -/
def finish (s : Settings) (layout : Layout) (schema : Path) (tables : List Table)
    (skipped : List Declaration.Unread) : Run m GenerateReport := do
  let files ← if tables.isEmpty then pure [] else emit (s.emitOptions layout) tables
  return { schema, tableCount := tables.length, files, skipped }

/-! ### Runs -/

/-- The tables that a text declares, if the settings take it. -/
def declaredTables (s : Settings) (source : String) :
    Except RunError Declaration.DeclaredTables :=
  match Declaration.DeclaredTables.ofSource (if s.strict then .strict else .lenient) source with
  | .error unread => .error (.declaration unread)
  | .ok declared =>
    match danglingReferences declared.tables with
    | [] => .ok declared
    | references => if s.strict then .error (.dangling references) else .ok declared

/-- The tables of a schema in the description language, if the settings take it. -/
def documentTables (s : Settings) (source : String) : Except RunError (List Table) :=
  match Schema.Document.ofCheckedSource source with
  | .error e => .error (.source e)
  | .ok document =>
    match document.datasource with
    | .error e => .error (.lookup e)
    | .ok _ =>
      match document.validateRelations with
      | .error e => if s.validateRelations then .error (.lookup e) else .ok document.tables
      | .ok _ => .ok document.tables

/-- Generate files from table declarations. -/
def generateDrizzle (root : Path) (s : Settings) (request : GenerateRequest) :
    Run m GenerateReport := do
  let schema ← locate root request.schema s.drizzle.candidates
  let source ← read schema
  let declared ← (ofExcept (declaredTables s source) : Run m _)
  finish s (s.layoutFor s.drizzle false root request schema) schema declared.tables
    declared.skipped

/-- Generate files from a schema in the description language. -/
def generatePrisma (root : Path) (s : Settings) (request : GenerateRequest) :
    Run m GenerateReport := do
  let schema ← locate root request.schema s.prisma.candidates
  let source ← read schema
  let tables ← (ofExcept (documentTables s source) : Run m _)
  finish s (s.layoutFor s.prisma true root request schema) schema tables []

end Run

end SchemaForge
