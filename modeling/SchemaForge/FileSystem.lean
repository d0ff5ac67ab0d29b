import SchemaForge.Path

/-!
# File systems

What a run asks of a file system, so that the same program runs on a disk and on a tree in memory.

## Main definitions

* `OsError` — why the system refuses a call.
* `FileSystem` — the calls.
* `createDirectories` — a directory with all that are missing above it.
-/

namespace SchemaForge

/-- Why the system refuses a call. -/
inductive OsError where
  /-- There is nothing at the path. -/
  | notFound
  /-- There is something at the path already. -/
  | alreadyExists
  /-- A part of the path is a file. -/
  | notDirectory
  /-- There is a directory where a file is wanted. -/
  | isDirectory
  /-- A name is longer than the system takes. -/
  | nameTooLong
  /-- The path holds the character that ends it. -/
  | nulCharacter
  /-- The file does not hold text. -/
  | notText
  /-- Any other reason, as the system words it. -/
  | other (text : String)
  deriving DecidableEq, Repr, Inhabited

/-- The system's words for a refusal. -/
def OsError.text : OsError → String
  | notFound => "No such file or directory (os error 2)"
  | alreadyExists => "File exists (os error 17)"
  | notDirectory => "Not a directory (os error 20)"
  | isDirectory => "Is a directory (os error 21)"
  | nameTooLong => "File name too long (os error 36)"
  | nulCharacter => "file name contained an unexpected NUL byte"
  | notText => "stream did not contain valid UTF-8"
  | other text => text

/-- The calls of a file system. -/
class FileSystem (m : Type → Type) where
  /-- The directory that relative paths start from. -/
  currentDirectory : m Path
  /-- Whether there is anything at a path. -/
  isPresent : Path → m Bool
  /-- Whether there is a file at a path. -/
  isFile : Path → m Bool
  /-- Whether there is a directory at a path. -/
  isDirectory : Path → m Bool
  /-- The text that a file holds. -/
  readText : Path → m (Except OsError String)
  /-- Make one directory. -/
  createDirectory : Path → m (Except OsError Unit)
  /-- Make a file hold a text, and make the file if there is none. -/
  writeText : Path → String → m (Except OsError Unit)

namespace FileSystem

variable {m : Type → Type} [Monad m] [FileSystem m]

/-- The outcome of making a directory that may be there already. -/
def settle (p : Path) : Except OsError Unit → m (Except OsError Unit)
  | .ok _ => return .ok ()
  | .error e => return if ← isDirectory p then .ok () else .error e

/-- Make a directory of this many components with all that are missing above it.  A path without
components is the current directory, which is there. -/
def createFrom : Nat → Path → m (Except OsError Unit)
  | 0, _ => return .ok ()
  | above + 1, p => do
    match ← createDirectory p with
    | .error .notFound =>
      match p.parent? with
      | none => return .error (.other "failed to create whole tree")
      | some parent =>
        match ← createFrom above parent with
        | .ok _ => settle p (← createDirectory p)
        | .error e => return .error e
    | outcome => settle p outcome

/-- Make a directory with all that are missing above it. -/
def createDirectories (p : Path) : m (Except OsError Unit) :=
  createFrom p.components.length p

end FileSystem

end SchemaForge
