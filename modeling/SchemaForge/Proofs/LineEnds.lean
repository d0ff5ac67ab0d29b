import SchemaForge.Proofs.Declaration.LineEnds
import SchemaForge.Proofs.Schema.LineEnds

/-!
# The ends of lines in both languages

A source of either language may end its lines in either way: with a line feed alone, or with a
carriage return in front of it.  What it means is the same, and so is what is wrong with it.  In a
schema, only a backslash in front of a line feed is in the way of this, and in declarations only a
table whose name goes over the end of a line.

## Main results

* `line_ends_are_free` — **how lines end changes nothing.**
-/

namespace SchemaForge

open Text Schema Declaration

/-- **How lines end changes nothing.**  A schema that escapes no line feed spells the same document,
or has the same error on the same line, whether or not its names are to be declared once.  A source
of declarations whose table names have no line feed declares the same tables and leaves out the
same, or has the same error at the same line and column. -/
theorem line_ends_are_free (source : String) :
    (PlainLineEnds source.toList →
      (Document.ofCheckedSource (sourceWithReturns source)).mapError SourceError.byLine =
        (Document.ofCheckedSource source).mapError SourceError.byLine ∧
      (Document.ofSource (sourceWithReturns source)).mapError SourceError.byLine =
        (Document.ofSource source).mapError SourceError.byLine) ∧
    ((∀ m ∈ headerMatches source.toList, '\n' ∉ m.header.tableName) →
      ∀ mode, DeclaredTables.ofSource mode (sourceWithReturns source) =
        DeclaredTables.ofSource mode source) := by
  refine ⟨?_, ?_⟩
  · intro h
    exact ⟨Schema.ofCheckedSource_withReturns h, Schema.ofSource_withReturns h⟩
  · intro hnames mode
    exact Declaration.ofSource_withReturns hnames mode

/-- Two lines of a schema, of which the first has a comment and the second an error. -/
def sampleSchemaLines : String :=
  "model User \x7b // who\n  id ="

/-- Two lines of a declaration, with a comment between its name and its column. -/
def sampleDeclarationLines : String :=
  "export const u =\npgTable('u', t => (\x7b // it\na: t.text() \x7d))"

theorem line_ends_are_free_sample :
    PlainLineEnds sampleSchemaLines.toList ∧
      (Document.ofSource (sourceWithReturns sampleSchemaLines)).mapError SourceError.byLine =
        (Document.ofSource sampleSchemaLines).mapError SourceError.byLine ∧
      (∀ m ∈ headerMatches sampleDeclarationLines.toList, '\n' ∉ m.header.tableName) ∧
      DeclaredTables.ofSource .strict (sourceWithReturns sampleDeclarationLines) =
        DeclaredTables.ofSource .strict sampleDeclarationLines := by
  have hplain : PlainLineEnds sampleSchemaLines.toList := by decide +kernel
  have hnames : ∀ m ∈ headerMatches sampleDeclarationLines.toList, '\n' ∉ m.header.tableName := by
    decide +kernel
  have hschema := (line_ends_are_free sampleSchemaLines).1 hplain
  have hdeclarations := (line_ends_are_free sampleDeclarationLines).2 hnames
  exact ⟨hplain, hschema.2, hnames, hdeclarations .strict⟩

end SchemaForge
