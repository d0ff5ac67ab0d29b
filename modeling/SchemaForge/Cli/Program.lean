import SchemaForge.Cli.Invocation
import SchemaForge.Cli.LogFilter
import SchemaForge.Run.Schema
import SchemaForge.Settings.Load
import SchemaForge.Skeleton.NewProject

/-!
# The program

What the program prints and how it ends, for its arguments, its environment and the file system it
runs on.

## Main definitions

* `Output` — what is printed, and the exit code.
* `run` — the program.
-/

namespace SchemaForge.Cli

/-- What a program prints, and its exit code. -/
structure Output where
  /-- The exit code. -/
  exit : Nat
  /-- What is printed. -/
  stdout : String
  /-- What is printed as a warning or an error. -/
  stderr : String
  deriving DecidableEq, Repr, Inhabited

/-- The version of the program. -/
def version : String := "effex 0.2.0"

/-- A short explanation of the program. -/
def usage : String :=
  ofLines
    [ "Create Effect-TS apps and generate Effect schemas and services",
      "",
      "Usage: effex [-v] generate drizzle [--schema-path PATH] [--output-dir PATH]",
      "                                   [--services-dir PATH] [--strict]",
      "       effex [-v] generate prisma [--schema-path PATH] [--output-dir PATH]",
      "                                  [--skip-relation-check]",
      "       effex [-v] format [--schema-path PATH] [--write]",
      "       effex [-v] create NAME [--package-manager bun|pnpm|npm] [--directory PATH]" ]

/-- What stands in front of a line about something done. -/
def doneMark : String := "√ "

/-- What stands in front of a warning. -/
def warningMark : String := "! "

namespace Output

/-- A run that succeeds. -/
def success (stdout stderr : List String) : Output :=
  ⟨0, ofLines stdout, ofLines stderr⟩

/-- A run that fails; the error is told from its context down to its cause. -/
def failure (chain : List String) : Output :=
  ⟨1, "", ofLines ["✗ " ++ ": ".intercalate chain]⟩

/-- A run that breaks off.  The words that the runtime puts around the message are left out. -/
def brokenOff (message : String) : Output :=
  ⟨101, "", ofLines [message]⟩

/-- The outcome of arguments that are no command to run. -/
def ofStop : Stop → Output
  | .usage => ⟨2, "", usage⟩
  | .help => ⟨0, usage, ""⟩
  | .version => success [version] []

end Output

/-! ### Reports -/

/-- The error of a run in a context, down to the system's refusal.  A run that breaks off tells no
context. -/
def runFailure (context : String) : RunError → Output
  | .layout fault => .brokenOff fault.message
  | e => .failure ([context, e.message] ++ (e.refusal?.map OsError.text).toList)

/-- The warnings of a run that generates files. -/
def warnings (root : Path) (r : GenerateReport) : List String :=
  let skipped := r.skipped.map fun u =>
    "Skipped column in " ++ u.table ++ " (line " ++ toString u.position.line ++ "): " ++ u.text
  let none :=
    if r.tableCount = 0 then
      ["No tables found in " ++ (r.schema.relativeTo root).text ++ "; nothing generated"]
    else []
  skipped ++ none

/-- The lines about the files of a run. -/
def completions (root : Path) (r : GenerateReport) : List String :=
  r.files.map fun f => (f.path.relativeTo root).text ++ " (" ++ f.description ++ ")"

/-- What a run that generates files prints. -/
def generateOutput (root : Path) (r : GenerateReport) : Output :=
  let total :=
    if r.files.isEmpty then []
    else
      [ "",
        "Generated " ++ toString r.files.length ++ " files from " ++
          (r.schema.relativeTo root).text ]
  .success ((completions root r).map (doneMark ++ ·) ++ total)
    ((warnings root r).map (warningMark ++ ·))

/-- What a run of the formatter prints: the text, or what became of the file. -/
def formatOutput (root : Path) (write : Bool) (r : FormatReport) : Output :=
  let shown := (r.schema.relativeTo root).text
  if !write then ⟨0, r.text, ""⟩
  else if r.changed then .success [doneMark ++ "Formatted " ++ shown] []
  else .success [doneMark ++ shown ++ " already formatted"] []

/-- What is printed before a project is created. -/
def createGreeting (p : Skeleton.NewProject) : List String :=
  ["Creating effex project: " ++ p.name, ""]

/-- What is printed after a project is created. -/
def createAdvice (p : Skeleton.NewProject) : List String :=
  [ "✓ Project created successfully!",
    "",
    "Next steps:",
    "",
    "  1. Navigate to project:",
    "     $ cd " ++ p.target.text,
    "",
    "  2. Install dependencies:",
    "     $ " ++ p.manager.install,
    "",
    "  3. Generate Effect schemas and services:",
    "     $ " ++ p.manager.run ++ " db:generate",
    "",
    "  4. Start development server:",
    "     $ " ++ p.manager.run ++ " dev",
    "" ]

/-! ### The program -/

variable {m : Type → Type} [Monad m] [FileSystem m]

/-- Run a command that needs the settings of the project. -/
def withSettings (root : Path) (environment : List (String × String))
    (command : Settings → m Output) : m Output := do
  match ← loadSettings root environment with
  | .ok s => command s
  | .error e => return .failure ["Failed to load configuration", e.message, e.reason]

/-- Run one of the commands that generate files. -/
def generate (root : Path) (context : String) (command : Run m GenerateReport) : m Output := do
  match ← command.run with
  | .ok report => return generateOutput root report
  | .error e => return runFailure context e

/-- Create a project. -/
def create (name : String) (manager : PackageManager) (parent : Option Path) : m Output := do
  match ← (Skeleton.NewProject.prepare name manager parent : ExceptT _ m _).run with
  | .error e => return .failure [e.message]
  | .ok project =>
    match ← (project.create : ExceptT _ m _).run with
    | .ok _ => return .success (createGreeting project ++ createAdvice project) []
    | .error e =>
      return { Output.failure [e.message] with stdout := ofLines (createGreeting project) }

/-- Run a command in the project at a root. -/
def runCommand (root : Path) (environment : List (String × String)) : Command → m Output
  | .generateDrizzle request strict =>
    withSettings root environment fun s =>
      generate root "Failed to generate from Drizzle schema"
        (Run.generateDrizzle root { s with strict := s.strict || strict } request)
  | .generatePrisma request skip =>
    withSettings root environment fun s =>
      generate root "Failed to generate from Prisma schema"
        (Run.generatePrisma root
          { s with validateRelations := s.validateRelations && !skip } request)
  | .format schema write =>
    withSettings root environment fun s => do
      match ← (Run.format root s schema write : Run m _).run with
      | .ok report => return formatOutput root write report
      | .error e => return runFailure "Failed to format schema" e
  | .create name manager parent => create name manager parent

/-- Whether the environment asks for log lines in a way that can be followed.  A filter of blanks
counts as none. -/
def logFilterOk (environment : List (String × String)) : Bool :=
  match environment.lookup "RUST_LOG" with
  | some filter => (Text.trim filter.toList).isEmpty || LogFilter.isWellFormed filter
  | none => true

/-- The program, in the current directory. -/
def run (arguments : List String) (environment : List (String × String)) : m Output := do
  match Invocation.ofArguments arguments with
  | .error stop => return .ofStop stop
  | .ok invocation =>
    if !logFilterOk environment then return .failure ["invalid filter directive"]
    runCommand (← FileSystem.currentDirectory) environment invocation.command

end SchemaForge.Cli
