import SchemaForge.Text.Blank

/-!
# Names of projects

A project's name becomes the name of its directory and stands in its files, so it is made of plain
letters, digits, hyphens and underscores only.

## Main definitions

* `ProjectNameFault` — what may be wrong with a name.
* `projectName` — a name without the blanks around it, if nothing is.
-/

namespace SchemaForge

/-- What may be wrong with the name of a project. -/
inductive ProjectNameFault where
  /-- There is none. -/
  | empty
  /-- It holds a character that file systems treat in a special way. -/
  | special
  /-- It is the name of a directory that tools make. -/
  | reserved
  /-- It holds any other character that is not plain. -/
  | notPlain
  deriving DecidableEq, Repr, Inhabited

/-- The report of a fault. -/
def ProjectNameFault.message : ProjectNameFault → String
  | empty => "Project name cannot be empty"
  | special =>
    "Project name contains invalid characters. Avoid special characters like <>:\"/\\|?*"
  | reserved => "Project name cannot be a reserved directory name"
  | notPlain => "Project name can only contain letters, numbers, hyphens, and underscores"

/-- Characters that file systems treat in a special way. -/
def specialChars : List Char :=
  ['<', '>', ':', '"', '/', '\\', '|', '?', '*']

/-- Names of directories that tools make, in small letters. -/
def reservedNames : List String :=
  ["node_modules", "dist", "build", ".git", ".next"]

/-- Characters that a name may have. -/
def isPlain (c : Char) : Bool :=
  c.isAlphanum || c == '-' || c == '_'

/-- A name without the blanks around it, if it can be the name of a project.  Of several faults the
first in the order of their declaration counts. -/
def projectName (name : String) : Except ProjectNameFault String :=
  let chars := Text.trim name.toList
  if chars.isEmpty then .error .empty
  else if chars.any specialChars.contains then .error .special
  else if reservedNames.contains (String.ofList (chars.map Char.toLower)) then .error .reserved
  else if !chars.all isPlain then .error .notPlain
  else .ok (String.ofList chars)

end SchemaForge
