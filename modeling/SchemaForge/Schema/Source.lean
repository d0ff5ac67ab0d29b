import SchemaForge.Schema.Grammar
import SchemaForge.Schema.Lexeme
import SchemaForge.Schema.Shape
import SchemaForge.Text.Position

/-!
# Documents of a source text

## Main definitions

* `SourceError` — why a text is no schema.
* `Document.ofSource` — the document that a text spells, whatever its names.
* `Document.ofCheckedSource` — the same, refused when a name is declared twice.
-/

namespace SchemaForge.Schema

open Text

/-- Why a text is no schema. -/
inductive SourceError where
  /-- No lexeme starts at a place. -/
  | lexical (fault : LexicalFault) (position : Position)
  /-- The tokens spell no document. -/
  | grammar (mismatch : Mismatch) (position : Position)
  /-- A name is declared twice; the text is otherwise a document. -/
  | shape (fault : ShapeFault)
  deriving DecidableEq, Repr, Inhabited

/-- The report of an error.  A repeated name has no place. -/
def SourceError.report : SourceError → SourceReport
  | lexical fault position => ⟨fault.message, some position⟩
  | grammar mismatch position => ⟨mismatch.message, some position⟩
  | shape fault => ⟨fault.message, none⟩

/-- The tokens of a text. -/
def TokenRow.ofSource (source : String) : Except SourceError TokenRow :=
  match TokenRow.ofText source.toList with
  | .ok row => .ok row
  | .error (fault, position) => .error (.lexical fault position)

/-- The document that a row of tokens spells. -/
def Document.ofTokens (row : TokenRow) : Except SourceError Document :=
  match Document.ofKinds row.kinds with
  | .ok document => .ok document
  | .error fault => .error (.grammar fault.mismatch (row.positionBefore fault.remaining))

/-- The document that a text spells. -/
def Document.ofSource (source : String) : Except SourceError Document := do
  Document.ofTokens (← TokenRow.ofSource source)

/-- A document whose names are declared once. -/
def Document.checked (d : Document) : Except SourceError Document :=
  match d.shapeFault? with
  | some fault => .error (.shape fault)
  | none => .ok d

/-- The document that a text spells, if its names are declared once. -/
def Document.ofCheckedSource (source : String) : Except SourceError Document := do
  (← Document.ofSource source).checked

end SchemaForge.Schema
