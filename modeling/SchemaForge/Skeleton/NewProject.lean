import SchemaForge.FileSystem
import SchemaForge.Name.Case
import SchemaForge.Skeleton.Files
import SchemaForge.Skeleton.PackageManager
import SchemaForge.Skeleton.ProjectName

/-!
# Creating a project

A project is created in a directory of its own, which must not be there yet.

## Main definitions

* `slotValue` — what stands in the slots of a project's files.
* `NewProject` — a project that can be created.
* `NewProject.prepare`, `NewProject.create` — check a request, and create the project.
-/

namespace SchemaForge.Skeleton

/-- What stands in the slots of the files of a project. -/
def slotValue (name : String) (manager : PackageManager) : Slot → String
  | .projectName => name
  | .projectNameSnake => Name.snake name
  | .packageManager => manager.name
  | .pinned => manager.pinned
  | .executable => manager.executable
  | .install => manager.install
  | .run => manager.run

/-- The text of a file of a project. -/
def SkeletonFile.text (name : String) (manager : PackageManager) (f : SkeletonFile) : String :=
  f.template.fill (slotValue name manager)

/-- A project that can be created. -/
structure NewProject where
  /-- Its name. -/
  name : String
  /-- The package manager it is set up for. -/
  manager : PackageManager
  /-- Its directory. -/
  target : Path
  deriving DecidableEq, Repr, Inhabited

/-- Why a project is not created. -/
inductive CreateError where
  /-- The name is none for a project. -/
  | name (fault : ProjectNameFault)
  /-- There is something at the place of the project. -/
  | taken (target : Path)
  /-- A directory cannot be made. -/
  | directory (path : Path) (refusal : OsError)
  /-- A file cannot be written. -/
  | file (path : Path) (refusal : OsError)
  deriving DecidableEq, Repr, Inhabited

/-- The report of a cause. -/
def CreateError.message : CreateError → String
  | name fault => fault.message
  | taken target =>
    "Directory '" ++ target.text ++
      "' already exists. Please choose a different name or remove the existing directory."
  | directory path e => "Failed to create directory: " ++ path.text ++ ": " ++ e.text
  | file path e => "Failed to write file: " ++ path.text ++ ": " ++ e.text

namespace NewProject

variable {m : Type → Type} [Monad m]

/-- Stop unless a call succeeds. -/
def orStop (cause : OsError → CreateError) (call : m (Except OsError Unit)) :
    ExceptT CreateError m Unit := do
  match ← (call : m _) with
  | .ok _ => return ()
  | .error e => throw (cause e)

variable [FileSystem m]

/-- Check a request for a project, whose directory goes into the given one.  Nothing is written. -/
def prepare (name : String) (manager : PackageManager) (parent : Option Path) :
    ExceptT CreateError m NewProject := do
  match projectName name with
  | .error fault => throw (.name fault)
  | .ok name =>
    let target :=
      match parent with
      | some p => p.child name
      | none => ⟨name⟩
    if ← (FileSystem.isPresent target : m Bool) then throw (.taken target)
    return { name, manager, target }

/-- Write a file of a project into its directory, which is made if it is missing. -/
def writeFile (p : NewProject) (f : SkeletonFile) : ExceptT CreateError m Unit := do
  let path := p.target.join f.path
  match path.parent? with
  | some parent => orStop (.directory parent) (FileSystem.createDirectories parent)
  | none => pure ()
  orStop (.file path) (FileSystem.writeText path (f.text p.name p.manager))

/-- Write files of a project, in order. -/
def writeFiles (p : NewProject) : List SkeletonFile → ExceptT CreateError m Unit
  | [] => return ()
  | f :: rest => do
    p.writeFile f
    p.writeFiles rest

/-- Create a project. -/
def create (p : NewProject) : ExceptT CreateError m Unit := do
  orStop (.directory p.target) (FileSystem.createDirectories p.target)
  p.writeFiles skeletonFiles

end NewProject

end SchemaForge.Skeleton
