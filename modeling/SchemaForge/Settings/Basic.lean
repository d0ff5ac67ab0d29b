import SchemaForge.Artifact.Plan
import SchemaForge.Text.Search

/-!
# Settings

What a project may choose, and what is chosen when it chooses nothing.

## Main definitions

* `SourceSettings` — where schemas of one language are looked for, and where their files go.
* `Settings` — all settings, with their defaults.
* `Settings.isWorkspaceSchema` — whether a schema lies in the workspace package.
-/

namespace SchemaForge

/-- Where schemas of one language are looked for, and where their files go. -/
structure SourceSettings where
  /-- The usual places of a schema, in the order they are tried. -/
  candidates : List Path
  /-- Where schemas, types and forms go when the schema lies in the workspace package. -/
  workspaceOutput : Path
  /-- Where they go otherwise. -/
  output : Path
  /-- Where services go when the schema lies in the workspace package. -/
  workspaceServices : Path
  /-- Where they go otherwise. -/
  services : Path
  deriving DecidableEq, Repr, Inhabited

/-- The settings for table declarations. -/
def SourceSettings.drizzle : SourceSettings where
  candidates :=
    [⟨"./src/schema.ts"⟩, ⟨"./packages/database/src/schema.ts"⟩, ⟨"../database/src/schema.ts"⟩]
  workspaceOutput := ⟨"./packages/database/src/generated/effect"⟩
  output := ⟨"./src/generated/effect"⟩
  workspaceServices := ⟨"./packages/api/src/services"⟩
  services := ⟨"./src/services"⟩

/-- The settings for the schema description language. -/
def SourceSettings.prisma : SourceSettings where
  candidates :=
    [⟨"./prisma/schema.prisma"⟩, ⟨"./packages/database/prisma/schema.prisma"⟩,
      ⟨"../prisma/schema.prisma"⟩]
  workspaceOutput := ⟨"./packages/database/src/generated/effect"⟩
  output := ⟨"./src/generated/effect"⟩
  workspaceServices := ⟨"./packages/database/src/generated/effect/services"⟩
  services := ⟨"./src/generated/effect/services"⟩

/-- All settings. -/
structure Settings where
  /-- The path that marks a schema of the workspace package. -/
  workspaceMarker : String := "packages/database"
  /-- What the modules of row schemas have in front. -/
  importBase : String := "@workspace/database/effect"
  /-- The module of the table bindings. -/
  tableImport : String := "@workspace/database/schema"
  /-- The module of the database client. -/
  prismaClientImport : String := "@workspace/database/prisma-client"
  /-- Whether forms are generated. -/
  emitForms : Bool := true
  /-- Whether table declarations are read strictly. -/
  strict : Bool := false
  /-- Where table declarations are and their files go. -/
  drizzle : SourceSettings := .drizzle
  /-- Where schemas of the description language are and their files go. -/
  prisma : SourceSettings := .prisma
  /-- Whether a relation to an undeclared model refuses a schema. -/
  validateRelations : Bool := true
  deriving DecidableEq, Repr, Inhabited

/-- A text without slashes at its end. -/
def trimSlashesEnd (text : List Char) : List Char :=
  (text.reverse.dropWhile (· == '/')).reverse

/-- A text without slashes at either end. -/
def trimSlashes (text : List Char) : List Char :=
  trimSlashesEnd (text.dropWhile (· == '/'))

/-- What generated code imports from, by the settings. -/
def Settings.imports (s : Settings) : ImportOptions where
  importBase := String.ofList (trimSlashesEnd s.importBase.toList)
  tableImport := s.tableImport
  prismaClientImport := s.prismaClientImport

/-- Whether a schema lies in the workspace package: the marker occurs in its path, whose
backslashes count as slashes. -/
def Settings.isWorkspaceSchema (s : Settings) (schema : Path) : Bool :=
  let marker := trimSlashes s.workspaceMarker.toList
  !marker.isEmpty &&
    Text.occursIn marker (schema.text.toList.map fun c => if c = '\\' then '/' else c)

end SchemaForge
