import SchemaForge.FileSystem
import SchemaForge.Settings.Basic
import SchemaForge.Settings.Environment
import SchemaForge.Toml.Reader

/-!
# Loading settings

Settings are what the program knows itself, under what the project's file says, under what the
environment says.  The merged layer is then read setting by setting; the first value of the wrong
kind is reported with its place.

## Main definitions

* `Settings.toLayer` — settings as a layer.
* `Settings.ofLayer` — the settings that a layer spells, or the first fault in it.
* `Settings.load` — the settings that a file and the environment make.
* `findSettingsFile` — the settings file of a project, if it has one.
* `loadSettings` — the settings of a project.
-/

namespace SchemaForge

/-! ### Faults -/

/-- The place of a value: the layer it came from, and its path in that layer. -/
structure Place where
  /-- The layer. -/
  origin : Origin
  /-- The names that lead to the value. -/
  path : List String
  deriving DecidableEq, Repr, Inhabited

/-- A place as reports end with it.  In the environment names are in capitals. -/
def Place.text (p : Place) : String :=
  let key (parts : List String) : String := " for key " ++ quoted (".".intercalate parts) ++ " in "
  match p.origin with
  | .builtIn => key ("default" :: p.path) ++ "TOML source string"
  | .file name => key ("default" :: p.path) ++ name ++ " TOML file"
  | .environment =>
    key (p.path.map String.toUpper) ++ "\x60EFFEX_\x60 environment variable(s)"

/-- A value of another kind than is wanted. -/
structure Mismatch where
  /-- What the value is. -/
  found : String
  /-- What is wanted. -/
  expected : String
  deriving DecidableEq, Repr, Inhabited

/-- Why settings cannot be loaded. -/
inductive SettingsError where
  /-- The settings file is not well formed. -/
  | malformed
  /-- A value is of the wrong kind. -/
  | wrongKind (mismatch : Mismatch) (place : Place)
  /-- A section lacks a setting that has no default. -/
  | missing (name : String) (place : Place)
  deriving DecidableEq, Repr, Inhabited

/-- What is wrong with the settings, without the words in front. -/
def SettingsError.reason : SettingsError → String
  | malformed => "not a TOML document"
  | wrongKind m place =>
    "invalid type: found " ++ m.found ++ ", expected " ++ m.expected ++ place.text
  | missing name place => "missing field \x60" ++ name ++ "\x60" ++ place.text

/-- The report of a fault. -/
def SettingsError.message (e : SettingsError) : String :=
  "Invalid configuration: " ++ e.reason

/-! ### Values of a kind -/

namespace LayerValue

/-- A value that should have been something else. -/
def mismatch {α : Type} (v : LayerValue) (expected : String) : Except Mismatch α :=
  .error ⟨v.describe, expected⟩

/-- A value with a single character as a text, which it counts as outside of lists and paths. -/
def charAsString : LayerValue → LayerValue
  | scalar o (.char c) => scalar o (.string (String.singleton c))
  | v => v

/-- A truth value. -/
def truth (v : LayerValue) : Except Mismatch Bool :=
  match v.charAsString with
  | scalar _ (.boolean b) => .ok b
  | v => v.mismatch "a boolean"

/-- A text, which may be a single character. -/
def text (v : LayerValue) : Except Mismatch String :=
  match v.charAsString with
  | scalar _ (.string s) => .ok s
  | v => v.mismatch "a string"

/-- A path, for which a single character in quotes does not stand. -/
def path : LayerValue → Except Mismatch Path
  | scalar _ (.string s) => .ok ⟨s⟩
  | v => v.mismatch "path string"

/-- A list of paths. -/
def paths : LayerValue → Except Mismatch (List Path)
  | list _ values => values.mapM path
  | v => v.mismatch "a sequence"

end LayerValue

/-! ### Settings and layers -/

/-- The settings of one language as entries of a section. -/
def SourceSettings.entries (o : Origin) (s : SourceSettings) : List (String × LayerValue) :=
  let text (p : Path) : LayerValue := .scalar o (.string p.text)
  [("candidates", .list o (s.candidates.map text)),
    ("workspace_output_dir", text s.workspaceOutput), ("output_dir", text s.output),
    ("workspace_services_dir", text s.workspaceServices), ("services_dir", text s.services)]

/-- Settings as a layer. -/
def Settings.toLayer (o : Origin) (s : Settings) : LayerValue :=
  let text (t : String) : LayerValue := .scalar o (.string t)
  let truth (b : Bool) : LayerValue := .scalar o (.boolean b)
  .table o
    [("workspace_marker", text s.workspaceMarker), ("import_base", text s.importBase),
      ("table_import", text s.tableImport), ("prisma_client_import", text s.prismaClientImport),
      ("emit_form_schemas", truth s.emitForms), ("strict", truth s.strict),
      ("drizzle", .table o (s.drizzle.entries o)),
      ("prisma", .table o
        (s.prisma.entries o ++ [("validate_relations", truth s.validateRelations)]))]

/-- A setting of a section or of the whole, if it is there.  A fault is reported at its own
place. -/
def setting? {α : Type} (parent : LayerValue) (path : List String) (name : String)
    (read : LayerValue → Except Mismatch α) : Except SettingsError (Option α) :=
  match parent.get? name with
  | none => .ok none
  | some v =>
    match read v with
    | .ok a => .ok (some a)
    | .error m => .error (.wrongKind m ⟨v.origin, path ++ [name]⟩)

/-- The settings of one language, from its section.  They are read in the order of their names,
and a fault counts as one of the whole section. -/
def SourceSettings.ofSection (name : String) (v : LayerValue) :
    Except SettingsError SourceSettings := do
  let place : Place := ⟨v.origin, [name]⟩
  let present {α : Type} (key : String) (read : LayerValue → Except Mismatch α) :
      Except SettingsError (Option α) :=
    match (v.get? key).mapM read with
    | .ok a => .ok a
    | .error m => .error (.wrongKind m place)
  let required {α : Type} (key : String) : Option α → Except SettingsError α
    | some a => .ok a
    | none => .error (.missing key place)
  let candidates ← present "candidates" LayerValue.paths
  let output ← present "output_dir" LayerValue.path
  let services ← present "services_dir" LayerValue.path
  let workspaceOutput ← present "workspace_output_dir" LayerValue.path
  let workspaceServices ← present "workspace_services_dir" LayerValue.path
  return {
    candidates := ← required "candidates" candidates
    workspaceOutput := ← required "workspace_output_dir" workspaceOutput
    output := ← required "output_dir" output
    workspaceServices := ← required "workspace_services_dir" workspaceServices
    services := ← required "services_dir" services }

/-- A section, which has to be a table. -/
def sectionOf? {α : Type} (whole : LayerValue) (name expected : String)
    (read : LayerValue → Except SettingsError α) : Except SettingsError (Option α) :=
  match whole.get? name with
  | none => .ok none
  | some (.table o entries) => some <$> read (.table o entries)
  | some v => .error (.wrongKind ⟨v.charAsString.describe, expected⟩ ⟨v.origin, [name]⟩)

/-- The section of the schema description language, with the check of its relations. -/
def prismaSection (v : LayerValue) : Except SettingsError (SourceSettings × Bool) := do
  let check ← setting? v ["prisma"] "validate_relations" LayerValue.truth
  return (← SourceSettings.ofSection "prisma" v, check.getD true)

/-- The settings that a layer spells, or the first fault in it, in the order of the names.  What
it does not set is as the program knows it. -/
def Settings.ofLayer (v : LayerValue) : Except SettingsError Settings := do
  let known : Settings := {}
  let text (name : String) : Except SettingsError (Option String) :=
    setting? v [] name LayerValue.text
  let truth (name : String) : Except SettingsError (Option Bool) :=
    setting? v [] name LayerValue.truth
  let drizzle ← sectionOf? v "drizzle" "struct DrizzleSettings" (SourceSettings.ofSection "drizzle")
  let emitForms ← truth "emit_form_schemas"
  let importBase ← text "import_base"
  let prisma ← sectionOf? v "prisma" "struct PrismaSettings" prismaSection
  let prismaClientImport ← text "prisma_client_import"
  let strict ← truth "strict"
  let tableImport ← text "table_import"
  let workspaceMarker ← text "workspace_marker"
  let (prisma, validateRelations) := prisma.getD (known.prisma, known.validateRelations)
  return {
    workspaceMarker := workspaceMarker.getD known.workspaceMarker
    importBase := importBase.getD known.importBase
    tableImport := tableImport.getD known.tableImport
    prismaClientImport := prismaClientImport.getD known.prismaClientImport
    emitForms := emitForms.getD known.emitForms
    strict := strict.getD known.strict
    drizzle := drizzle.getD known.drizzle
    prisma, validateRelations }

/-! ### The project's file -/

/-- A settings file. -/
structure SettingsFile where
  /-- What reports call it. -/
  name : String
  /-- What it holds, unless that is not text. -/
  text : Option String
  deriving DecidableEq, Repr, Inhabited

mutual

/-- A value of a settings file as one of a layer.  A time is a table with one entry. -/
def LayerValue.ofToml (o : Origin) : Toml.Value → LayerValue
  | .string s => .scalar o (.string s)
  | .integer n => .scalar o (.signed n)
  | .float text => .scalar o (.float text)
  | .boolean b => .scalar o (.boolean b)
  | .time text => .table o [("$__toml_private_datetime", .scalar o (.string text))]
  | .array values => .list o (valuesOfToml o values)
  | .table entries => .table o (entriesOfToml o entries)

/-- The values of a list. -/
def LayerValue.valuesOfToml (o : Origin) : List Toml.Value → List LayerValue
  | [] => []
  | v :: vs => ofToml o v :: valuesOfToml o vs

/-- The entries of a table. -/
def LayerValue.entriesOfToml (o : Origin) :
    List (String × Toml.Value) → List (String × LayerValue)
  | [] => []
  | (name, v) :: rest => (name, ofToml o v) :: entriesOfToml o rest

end

/-- The layer of a settings file, if it is well formed. -/
def SettingsFile.layer? (f : SettingsFile) : Option LayerValue := do
  let o : Origin := .file f.name
  let entries ← Toml.read? (← f.text)
  return .table o (LayerValue.entriesOfToml o entries)

/-- The settings of a project with this settings file, if any, and these variables. -/
def Settings.load (file : Option SettingsFile) (environment : List (String × String)) :
    Except SettingsError Settings := do
  let known := ({} : Settings).toLayer .builtIn
  let under ←
    match file with
    | none => pure known
    | some f =>
      match f.layer? with
      | some layer => pure (known.merge layer)
      | none => .error .malformed
  Settings.ofLayer (under.merge (Environment.layer environment))

/-! ### The settings file -/

variable {m : Type → Type} [Monad m] [FileSystem m]

/-- The name of the settings file. -/
def settingsFileName : Path := ⟨"effex.toml"⟩

/-- The places where a settings file is looked for.  That of a project at a relative path may lie
in any directory above, if there is no file at its own place. -/
def settingsPlaces (cwd own : Path) : List Path :=
  if own.isAbsolute then [own] else cwd.ancestors.map (·.join own)

/-- The first of some places with a file, read. -/
def readFirst (cwd : Path) : List Path → m (Option SettingsFile)
  | [] => return none
  | p :: rest => do
    if ← FileSystem.isFile p then
      return some ⟨(p.shownFrom cwd).text, (← FileSystem.readText p).toOption⟩
    readFirst cwd rest

/-- The settings file of a project, if there is anything at its place. -/
def findSettingsFile (root : Path) : m (Option SettingsFile) := do
  let own := root.join settingsFileName
  if ← FileSystem.isPresent own then
    let cwd ← FileSystem.currentDirectory
    readFirst cwd (settingsPlaces cwd own)
  else return none

/-- The settings of a project, with these variables. -/
def loadSettings (root : Path) (environment : List (String × String)) :
    m (Except SettingsError Settings) := do
  return Settings.load (← findSettingsFile root) environment

end SchemaForge
