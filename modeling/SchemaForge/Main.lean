import SchemaForge.Cli.Program

/-!
# The program on a disk

## Main definitions

* `main` — run the program on the disk, print what it says, and end as it does.
-/

namespace SchemaForge.Disk

/-- The number and the words of an error of the system. -/
def codeOf : IO.Error → UInt32 × String
  | .alreadyExists _ code text | .invalidArgument _ code text | .permissionDenied _ code text
  | .resourceExhausted _ code text | .inappropriateType _ code text | .noSuchThing _ code text
  | .noFileOrDirectory _ code text | .interrupted _ code text | .otherError code text
  | .resourceBusy code text | .resourceVanished code text | .unsupportedOperation code text
  | .hardwareFault code text | .unsatisfiedConstraints code text | .illegalOperation code text
  | .protocolError code text | .timeExpired code text => (code, text)
  | .unexpectedEof => (0, "unexpected end of file")
  | .userError text => (0, text)

/-- The refusal that an error of the system means.  Some calls give its number negated. -/
def refusalOf (e : IO.Error) : OsError :=
  let (code, text) := codeOf e
  let number := if Nat.pow 2 31 ≤ code.toNat then Nat.pow 2 32 - code.toNat else code.toNat
  match number with
  | 2 => .notFound
  | 17 => .alreadyExists
  | 20 => .notDirectory
  | 21 => .isDirectory
  | 36 => .nameTooLong
  | n => .other (text ++ " (os error " ++ toString n ++ ")")

/-- The outcome of a call, with the refusal if it fails. -/
def attempt {α : Type} (call : IO α) : IO (Except OsError α) := do
  match ← call.toBaseIO with
  | .ok a => return .ok a
  | .error e => return .error (refusalOf e)

/-- The outcome of a call at a path, which has to be one that the system takes. -/
def attemptAt {α : Type} (p : Path) (call : IO α) : IO (Except OsError α) :=
  if p.text.toList.contains '\x00' then return .error .nulCharacter
  else if p.text.isEmpty then return .error .notFound
  else attempt call

/-- The kind of what is at a path, if there is anything. -/
def kindAt (p : Path) : IO (Option IO.FS.FileType) := do
  let here ← IO.currentDir
  let outcome ← attemptAt p (here / p.text).metadata
  return outcome.toOption.map (·.type)

instance : FileSystem IO where
  currentDirectory := do return ⟨(← IO.currentDir).toString⟩
  isPresent p := do return (← kindAt p).isSome
  isFile p := do return (← kindAt p) == some .file
  isDirectory p := do return (← kindAt p) == some .dir
  readText p := do
    match ← attemptAt p (IO.FS.readBinFile p.text) with
    | .ok bytes =>
      match String.fromUTF8? bytes with
      | some s => return .ok s
      | none => return .error .notText
    | .error e => return .error e
  createDirectory p := attemptAt p (IO.FS.createDir p.text)
  writeText p s := attemptAt p (IO.FS.writeFile p.text s)

/-- The variables of the environment. -/
def environment : IO (List (String × String)) := do
  let bytes ← IO.FS.readBinFile "/proc/self/environ"
  let text := (String.fromUTF8? bytes).getD ""
  return (text.splitOn "\x00").filterMap fun entry =>
    match entry.splitOn "=" with
    | name :: value :: more => some (name, "=".intercalate (value :: more))
    | _ => none

end SchemaForge.Disk

/-- Run the program on the disk, print what it says, and end as it does. -/
def main (arguments : List String) : IO UInt32 := do
  let output ← SchemaForge.Cli.run arguments (← SchemaForge.Disk.environment)
  IO.print output.stdout
  IO.eprint output.stderr
  return output.exit.toUInt32
