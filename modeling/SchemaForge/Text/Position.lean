/-!
# Positions in a text

A position is a line and a column, both counted from one; a line feed ends a line.  Both schema
languages report a fault in their text in the same form, with its position.

## Main definitions

* `Position` — line and column.
* `Position.next` — the position after one character.
* `Position.after` — the position after a text.
* `SourceReport` — what is wrong in a source text, and where.
* `SourceReport.text` — the report as one line.
-/

namespace SchemaForge.Text

/-- A place in a text. -/
structure Position where
  /-- The line, counted from one. -/
  line : Nat
  /-- The column, counted from one in characters. -/
  column : Nat
  deriving DecidableEq, Repr, Inhabited

namespace Position

/-- The position of the first character. -/
def start : Position := ⟨1, 1⟩

/-- The position that follows a character: the first of a new line after a line feed, the next
column after any other. -/
def next (p : Position) (c : Char) : Position :=
  if c = '\n' then ⟨p.line + 1, 1⟩ else ⟨p.line, p.column + 1⟩

/-- The position that follows a text. -/
def after (p : Position) (text : List Char) : Position :=
  text.foldl next p

@[simp] theorem after_nil (p : Position) : p.after [] = p := rfl

@[simp] theorem after_cons (p : Position) (c : Char) (text : List Char) :
    p.after (c :: text) = (p.next c).after text := rfl

theorem after_append (p : Position) (s t : List Char) :
    p.after (s ++ t) = (p.after s).after t := by
  simp [after, List.foldl_append]

end Position

end SchemaForge.Text

namespace SchemaForge

open Text

/-- A fault in a source text. -/
structure SourceReport where
  /-- What is wrong. -/
  message : String
  /-- Where, if the fault has a place. -/
  position : Option Position
  deriving DecidableEq, Repr, Inhabited

/-- The report as one line. -/
def SourceReport.text (r : SourceReport) : String :=
  match r.position with
  | some p =>
    "Parse error at line " ++ toString p.line ++ ", column " ++ toString p.column ++ ": " ++
      r.message
  | none => "Parse error: " ++ r.message

end SchemaForge
