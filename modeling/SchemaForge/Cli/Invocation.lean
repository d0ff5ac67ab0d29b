import SchemaForge.Cli.Arguments
import SchemaForge.Run.Generate
import SchemaForge.Skeleton.PackageManager

/-!
# What a command line asks for

## Main definitions

* `Command`, `Invocation` — what can be asked for.
* `Invocation.ofArguments` — what arguments ask for.
-/

namespace SchemaForge.Cli

/-- What can be asked for. -/
inductive Command where
  /-- Generate files from table declarations. -/
  | generateDrizzle (request : GenerateRequest) (strict : Bool)
  /-- Generate files from a schema in the description language. -/
  | generatePrisma (request : GenerateRequest) (skipRelationCheck : Bool)
  /-- Lay out a schema in the description language. -/
  | format (schema : Option Path) (write : Bool)
  /-- Create a project. -/
  | create (name : String) (manager : PackageManager) (parent : Option Path)
  deriving DecidableEq, Repr, Inhabited

/-- A command with what concerns all commands. -/
structure Invocation where
  /-- Whether details are logged. -/
  verbose : Bool
  /-- The command. -/
  command : Command
  deriving DecidableEq, Repr, Inhabited

/-! ### Commands and their options -/

/-- A flag. -/
def flag (name : String) : OptionSpec := { long := name, effect := .flag }

/-- An option with a path, which may not be empty. -/
def pathOption (name : String) : OptionSpec :=
  { long := name, effect := .value fun text => !text.isEmpty }

/-- The options that every command has. -/
def commonOptions : List OptionSpec :=
  [{ long := "verbose", short := some 'v', effect := .flag },
    { long := "help", short := some 'h', effect := .help }]

/-- The program itself. -/
def programSpec : CommandSpec where
  options := { long := "version", short := some 'V', effect := .version } :: commonOptions
  subcommands := ["generate", "format", "create", "help"]

/-- Generating files. -/
def generateSpec : CommandSpec where
  options := commonOptions
  subcommands := ["drizzle", "prisma", "help"]

/-- Generating files from table declarations. -/
def drizzleSpec : CommandSpec where
  options :=
    [pathOption "schema-path", pathOption "output-dir", pathOption "services-dir", flag "strict"] ++
      commonOptions

/-- Generating files from a schema in the description language. -/
def prismaSpec : CommandSpec where
  options :=
    [pathOption "schema-path", pathOption "output-dir", flag "skip-relation-check"] ++
      commonOptions

/-- Laying out a schema. -/
def formatSpec : CommandSpec where
  options := [pathOption "schema-path", flag "write"] ++ commonOptions

/-- Creating a project. -/
def createSpec : CommandSpec where
  options :=
    [{ long := "package-manager", effect := .value fun s => (PackageManager.ofName? s).isSome },
      pathOption "directory"] ++ commonOptions
  positionals := 1

/-! ### Reading -/

/-- Read the arguments of a command without subcommands. -/
def CommandSpec.readAll (c : CommandSpec) (arguments : List String) : Except Stop Reading := do
  return (← c.read {} arguments).1

/-- The path that is the value of an option. -/
def Reading.path? (r : Reading) (name : String) : Option Path :=
  (r.value? name).map Path.mk

/-- The outcome of asking for the explanation of a command, by its names. -/
def explain : List String → Stop
  | [] => .help
  | ["generate"] => .help
  | ["generate", name] => if generateSpec.subcommands.contains name then .help else .usage
  | [name] => if programSpec.subcommands.contains name then .help else .usage
  | _ => .usage

/-- What the arguments behind `generate` ask for. -/
def Invocation.ofGenerate (verbose : Bool) (arguments : List String) :
    Except Stop Invocation := do
  let (r, subcommand) ← generateSpec.read {} arguments
  let verbose := verbose || r.isSet "verbose"
  match subcommand with
  | some ("drizzle", rest) =>
    let r ← drizzleSpec.readAll rest
    let request : GenerateRequest :=
      { schema := r.path? "schema-path", output := r.path? "output-dir",
        services := r.path? "services-dir" }
    return ⟨verbose || r.isSet "verbose", .generateDrizzle request (r.isSet "strict")⟩
  | some ("prisma", rest) =>
    let r ← prismaSpec.readAll rest
    let request : GenerateRequest :=
      { schema := r.path? "schema-path", output := r.path? "output-dir" }
    return ⟨verbose || r.isSet "verbose",
      .generatePrisma request (r.isSet "skip-relation-check")⟩
  | some (_, names) => .error (explain ("generate" :: names))
  | none => .error .usage

/-- What arguments ask for. -/
def Invocation.ofArguments (arguments : List String) : Except Stop Invocation := do
  let (r, subcommand) ← programSpec.read {} arguments
  let verbose := r.isSet "verbose"
  match subcommand with
  | some ("generate", rest) => Invocation.ofGenerate verbose rest
  | some ("format", rest) =>
    let r ← formatSpec.readAll rest
    return ⟨verbose || r.isSet "verbose", .format (r.path? "schema-path") (r.isSet "write")⟩
  | some ("create", rest) =>
    let r ← createSpec.readAll rest
    let manager := ((r.value? "package-manager").bind PackageManager.ofName?).getD .bun
    return ⟨verbose || r.isSet "verbose",
      .create (r.positionals.headD "") manager (r.path? "directory")⟩
  | some (_, names) => .error (explain names)
  | none => .error .usage

end SchemaForge.Cli
