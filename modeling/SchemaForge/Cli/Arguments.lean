/-!
# Arguments of a command line

Arguments are read one by one against what a command takes: options, which are flags or have a
value, subcommands, and positional arguments.  An option with a value takes the next argument,
unless that looks like an option itself or the value is attached with an equals sign.  Behind the
mark `--` everything is positional.

## Main definitions

* `OptionSpec`, `CommandSpec` — what a command takes.
* `Reading` — what has been read of the arguments.
* `CommandSpec.read` — read arguments up to a subcommand or the end.
-/

namespace SchemaForge.Cli

/-! ### What a command takes -/

/-- What an option does. -/
inductive OptionEffect where
  /-- It is set or not. -/
  | flag
  /-- It has a value, which has to be of a certain form. -/
  | value (accepts : String → Bool)
  /-- It asks for an explanation. -/
  | help
  /-- It asks for the version. -/
  | version

/-- An option. -/
structure OptionSpec where
  /-- Its name, which stands behind two hyphens. -/
  long : String
  /-- A letter that stands for it behind one hyphen. -/
  short : Option Char := none
  /-- What it does. -/
  effect : OptionEffect

/-- What a command takes. -/
structure CommandSpec where
  /-- Its options. -/
  options : List OptionSpec
  /-- Its subcommands, of which one is needed if there are any. -/
  subcommands : List String := []
  /-- How many positional arguments it takes, all of which are needed. -/
  positionals : Nat := 0

/-- Why arguments are not a command to run. -/
inductive Stop where
  /-- They are not well formed. -/
  | usage
  /-- They ask for an explanation. -/
  | help
  /-- They ask for the version. -/
  | version
  deriving DecidableEq, Repr, Inhabited

/-! ### What has been read -/

/-- What has been read of the arguments of a command. -/
structure Reading where
  /-- The flags that are set. -/
  flags : List String := []
  /-- The values of options. -/
  values : List (String × String) := []
  /-- The positional arguments, in order. -/
  positionals : List String := []
  /-- An option that waits for its value. -/
  pending : Option OptionSpec := none
  /-- Whether only positional arguments follow. -/
  literal : Bool := false

namespace Reading

/-- Whether a flag is set. -/
def isSet (r : Reading) (name : String) : Bool :=
  r.flags.contains name

/-- The value of an option. -/
def value? (r : Reading) (name : String) : Option String :=
  r.values.lookup name

/-- Set a flag, or stop. -/
def useFlag (r : Reading) (o : OptionSpec) : Except Stop Reading :=
  match o.effect with
  | .flag => if r.isSet o.long then .error .usage else .ok { r with flags := o.long :: r.flags }
  | .help => .error .help
  | .version => .error .version
  | .value _ => .error .usage

/-- Give an option its value. -/
def useValue (r : Reading) (o : OptionSpec) (text : String) : Except Stop Reading :=
  match o.effect with
  | .value accepts =>
    if accepts text && (r.value? o.long).isNone then
      .ok { r with values := (o.long, text) :: r.values, pending := none }
    else .error .usage
  | _ => .error .usage

/-- Add a positional argument. -/
def addPositional (r : Reading) (c : CommandSpec) (text : String) : Except Stop Reading :=
  if r.positionals.length < c.positionals then
    .ok { r with positionals := r.positionals ++ [text] }
  else .error .usage

end Reading

/-! ### Reading -/

/-- A long option cut at its first equals sign. -/
def splitAttached (text : List Char) : List Char × Option (List Char) :=
  let name := text.takeWhile (· ≠ '=')
  match text.drop name.length with
  | _ :: value => (name, some value)
  | [] => (name, none)

namespace CommandSpec

/-- Read a long option, without its hyphens. -/
def readLong (c : CommandSpec) (r : Reading) (text : List Char) : Except Stop Reading :=
  let (name, attached) := splitAttached text
  match c.options.find? (·.long.toList == name), attached with
  | none, _ => .error .usage
  | some o, some value => r.useValue o (String.ofList value)
  | some o, none =>
    match o.effect with
    | .value _ => .ok { r with pending := some o }
    | _ => r.useFlag o

/-- Read letters that stand for flags. -/
def readShorts (c : CommandSpec) (r : Reading) : List Char → Except Stop Reading
  | [] => .ok r
  | letter :: rest => do
    match c.options.find? (·.short == some letter) with
    | none => .error .usage
    | some o => readShorts c (← r.useFlag o) rest

/-- Read one argument. -/
def readOne (c : CommandSpec) (r : Reading) (argument : String) : Except Stop Reading :=
  if r.literal then r.addPositional c argument
  else
    match r.pending, argument.toList with
    | none, ['-', '-'] => .ok { r with literal := true }
    | none, '-' :: '-' :: text => c.readLong r text
    | none, '-' :: letter :: rest => c.readShorts r (letter :: rest)
    | none, _ => r.addPositional c argument
    | some _, '-' :: _ :: _ => .error .usage
    | some o, _ => r.useValue o argument

/-- Close what has been read: no option may wait, and nothing that is needed may be missing. -/
def close (c : CommandSpec) (r : Reading) : Except Stop Reading :=
  if r.pending.isNone && r.positionals.length == c.positionals && c.subcommands.isEmpty then .ok r
  else .error .usage

/-- Read arguments up to a subcommand, which is given with the arguments behind it, or to the
end. -/
def read (c : CommandSpec) (r : Reading) :
    List String → Except Stop (Reading × Option (String × List String))
  | [] => do return (← c.close r, none)
  | argument :: rest => do
    if !r.literal && r.pending.isNone && c.subcommands.contains argument then
      return (r, some (argument, rest))
    else c.read (← c.readOne r argument) rest

end CommandSpec

end SchemaForge.Cli
