import SchemaForge.Artifact.Rows
import SchemaForge.Artifact.Service
import SchemaForge.Path

/-!
# The files of a run

Every table gives a module of row schemas and a service; a declared table gives its types too, and
a form when it has anything to ask for.  The files of all tables are planned before any is
written, and two files on one path refuse the whole plan.

## Main definitions

* `ArtifactKind`, `GeneratedFile` — what a file holds, and a planned file.
* `Layout.pathFor` — where the file of a model goes.
* `plannedFiles`, `collision?`, `plan` — the files of a list of tables.
-/

namespace SchemaForge

/-- What a generated file holds. -/
inductive ArtifactKind where
  /-- Row schemas. -/
  | schema
  /-- A service. -/
  | service
  /-- Names of types. -/
  | types
  /-- A form. -/
  | form
  deriving DecidableEq, Repr, Inhabited

namespace ArtifactKind

/-- A kind by its name. -/
def label : ArtifactKind → String
  | schema => "schema"
  | service => "service"
  | types => "types"
  | form => "form schema"

/-- A kind as reports call it. -/
def title : ArtifactKind → String
  | schema => "Effect schemas"
  | service => "Effect service"
  | types => "Domain types"
  | form => "Form schema"

end ArtifactKind

/-- A file that a run is to write. -/
structure GeneratedFile where
  /-- Where it goes. -/
  path : Path
  /-- Its text. -/
  content : String
  /-- What it holds. -/
  kind : ArtifactKind
  /-- The model it was generated for. -/
  model : String
  deriving DecidableEq, Repr, Inhabited

/-- A file as reports call it. -/
def GeneratedFile.description (f : GeneratedFile) : String :=
  f.kind.title ++ " for " ++ f.model

/-- Where the files of a run go. -/
structure Layout where
  /-- The directory of schemas, types and forms. -/
  schemas : Path
  /-- The directory of services. -/
  services : Path
  deriving DecidableEq, Repr, Inhabited

/-- The name of the file of a model. -/
def ArtifactKind.fileName (kind : ArtifactKind) (model : String) : String :=
  match kind with
  | .schema => Name.kebab model ++ "-schemas.ts"
  | .service => Name.serviceStem model ++ "-service.ts"
  | .types => Name.kebab model ++ "-types.ts"
  | .form => Name.kebab model ++ "-form-schema.ts"

/-- The directory of the files of a kind. -/
def Layout.directory (l : Layout) : ArtifactKind → Path
  | .schema => l.schemas.child "schemas"
  | .service => l.services
  | .types => l.schemas.child "types"
  | .form => l.schemas.child "forms"

/-- Where the file of a model goes. -/
def Layout.pathFor (l : Layout) (kind : ArtifactKind) (model : String) : Path :=
  (l.directory kind).child (kind.fileName model)

/-- How files are generated. -/
structure EmitOptions where
  /-- What they import. -/
  imports : ImportOptions
  /-- Where they go. -/
  layout : Layout
  /-- Whether forms are generated. -/
  forms : Bool
  deriving DecidableEq, Repr, Inhabited

/-- The kinds of file that a table gives, in order. -/
def Table.artifactKinds (forms : Bool) (t : Table) : List ArtifactKind :=
  match t.dialect with
  | .prisma => [.schema, .service]
  | .drizzle =>
    if forms && !t.insertColumns.isEmpty then [.schema, .service, .types, .form]
    else [.schema, .service, .types]

/-- The text of a table's file of a kind. -/
def ArtifactKind.content (o : ImportOptions) (t : Table) : ArtifactKind → String
  | schema => rowModule t
  | service => serviceModule o t
  | types => typesModule o t
  | form => formModule t

/-- The files of a table, in order. -/
def Table.files (o : EmitOptions) (t : Table) : List GeneratedFile :=
  (t.artifactKinds o.forms).map fun kind =>
    { path := o.layout.pathFor kind t.modelName
      content := kind.content o.imports t
      kind := kind
      model := t.modelName }

/-- The files of a list of tables, in order. -/
def plannedFiles (o : EmitOptions) (tables : List Table) : List GeneratedFile :=
  tables.flatMap (Table.files o)

/-- Two models with a file on one path. -/
structure Collision where
  /-- The path, as the second model has it. -/
  path : Path
  /-- The model whose file came first. -/
  first : String
  /-- The model whose file came second. -/
  second : String
  deriving DecidableEq, Repr, Inhabited

/-- The report of a collision. -/
def Collision.message (c : Collision) : String :=
  "Models " ++ c.first ++ " and " ++ c.second ++ " both map to " ++ c.path.text

/-- The first file of a list on the path of an earlier one or of one of `seen`. -/
def collisionFrom? (seen : List GeneratedFile) : List GeneratedFile → Option Collision
  | [] => none
  | f :: rest =>
    match seen.find? fun g => g.path.same f.path with
    | some g => some ⟨f.path, g.model, f.model⟩
    | none => collisionFrom? (f :: seen) rest

/-- The first file of a list on the path of an earlier one. -/
def collision? (files : List GeneratedFile) : Option Collision :=
  collisionFrom? [] files

/-- The files of a list of tables, if no two are on one path. -/
def plan (o : EmitOptions) (tables : List Table) : Except Collision (List GeneratedFile) :=
  match collision? (plannedFiles o tables) with
  | some c => .error c
  | none => .ok (plannedFiles o tables)

end SchemaForge
