import SchemaForge.Artifact.Code

/-!
# Templates

A template is a text with slots, line by line.  Filling it puts a value into every slot; values are
put in as they are and never looked at again.

## Main definitions

* `Slot`, `Piece`, `Template` — texts with slots.
* `Template.fill` — the text with every slot filled.
-/

namespace SchemaForge.Skeleton

/-- What a template may leave open. -/
inductive Slot where
  /-- The name of the project. -/
  | projectName
  /-- The name in small letters with underscores. -/
  | projectNameSnake
  /-- The package manager. -/
  | packageManager
  /-- The package manager with its version. -/
  | pinned
  /-- How a program of a package is run. -/
  | executable
  /-- How packages are installed. -/
  | install
  /-- How a task of the project is run. -/
  | run
  deriving DecidableEq, Repr, Inhabited

/-- A piece of a line. -/
inductive Piece where
  /-- A text. -/
  | text (s : String)
  /-- A slot. -/
  | slot (slot : Slot)
  deriving DecidableEq, Repr, Inhabited

instance : Coe String Piece := ⟨.text⟩

/-- A text with slots, line by line. -/
abbrev Template := List (List Piece)

/-- A piece with its slot filled. -/
def Piece.fill (value : Slot → String) : Piece → String
  | text s => s
  | slot name => value name

/-- The text with every slot filled; each line ends with a line feed. -/
def Template.fill (value : Slot → String) (t : Template) : String :=
  ofLines (t.map fun pieces => String.join (pieces.map (Piece.fill value)))

@[simp] theorem Template.fill_nil (value : Slot → String) : Template.fill value [] = "" := rfl

end SchemaForge.Skeleton
