/-!
# Package managers

## Main definitions

* `PackageManager` — the package managers that a project can be set up for.
* `PackageManager.ofName?` — a package manager by its name.
-/

namespace SchemaForge

/-- A package manager that a project can be set up for. -/
inductive PackageManager where
  /-- The manager `bun`. -/
  | bun
  /-- The manager `pnpm`. -/
  | pnpm
  /-- The manager `npm`. -/
  | npm
  deriving DecidableEq, Repr, Inhabited

namespace PackageManager

/-- All package managers. -/
def all : List PackageManager := [bun, pnpm, npm]

/-- The name, which is also the program. -/
def name : PackageManager → String
  | bun => "bun"
  | pnpm => "pnpm"
  | npm => "npm"

/-- The version that a new project asks for. -/
def version : PackageManager → String
  | bun => "1.3.0"
  | pnpm => "10.18.3"
  | npm => "11.6.2"

/-- The name with the version. -/
def pinned (m : PackageManager) : String :=
  m.name ++ "@" ++ m.version

/-- How a program of a package is run without installing the package. -/
def executable : PackageManager → String
  | bun => "bun x"
  | pnpm => "pnpx"
  | npm => "npx"

/-- How packages are installed. -/
def install (m : PackageManager) : String :=
  m.name ++ " install"

/-- How a task of the project is run. -/
def run (m : PackageManager) : String :=
  m.name ++ " run"

/-- A package manager by its name. -/
def ofName? (name : String) : Option PackageManager :=
  all.find? (·.name == name)

/-- A package manager is found by its name. -/
@[simp] theorem ofName?_name (m : PackageManager) : ofName? m.name = some m := by
  cases m <;> rfl

end PackageManager

end SchemaForge
