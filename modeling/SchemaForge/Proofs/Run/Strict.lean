import SchemaForge.FileTree
import SchemaForge.Proofs.Declaration.Order
import SchemaForge.Proofs.Run.Outcome

/-!
# Strict runs

A strict reader refuses texts that a lenient one reads in part, and a strict run refuses foreign
keys to undeclared tables.  Neither gives an answer that the lenient one would not have given.

## Main results

* `strict_only_rejects` — **being strict rejects, and changes nothing else.**
-/

namespace SchemaForge

open Declaration

/-! ### Readers -/

namespace Declaration

/-- The report of something unread names its table, behind one of two openings. -/
theorem Unread.exists_message_eq (u : Unread) :
    ∃ before behind, u.report.message = before ++ ("table '" ++ u.table ++ "'") ++ behind := by
  obtain ⟨cause, table, position, text⟩ := u
  cases cause with
  | unterminated =>
    refine ⟨"Unterminated column object for ", "", ?_⟩
    rw [String.append_empty, String.append_assoc, ← String.append_assoc]
    rfl
  | unrecognised =>
    refine ⟨"Unrecognised column definition in ", ": " ++ text, ?_⟩
    have hquote : ("': " : String) = "'" ++ ": " := rfl
    rw [report, hquote]
    simp only [← String.append_assoc]
    rfl

/-- A strict reader that accepts a text leaves nothing out, and reads it as a lenient one does. -/
theorem DeclaredTables.ofSource_strict_eq_ok {source : String} {declared : DeclaredTables}
    (h : ofSource .strict source = .ok declared) : ofSource .lenient source = .ok declared := by
  rw [ofSource_eq] at h ⊢
  cases hskipped : (ofText source.toList).skipped with
  | nil =>
    rw [hskipped] at h
    exact h
  | cons u skipped =>
    rw [hskipped] at h
    cases h

end Declaration

/-! ### Runs -/

namespace Run

/-- Tables that strict settings take are those that lenient settings take. -/
theorem declaredTables_strict_eq_ok {s : Settings} {source : String} {declared : DeclaredTables}
    (h : declaredTables { s with strict := true } source = .ok declared) :
    declaredTables { s with strict := false } source = .ok declared := by
  unfold declaredTables at h ⊢
  dsimp only at h ⊢
  cases hstrict : DeclaredTables.ofSource .strict source with
  | error u =>
    rw [if_pos rfl, hstrict] at h
    cases h
  | ok strict =>
    have hlenient := DeclaredTables.ofSource_strict_eq_ok hstrict
    rw [if_pos rfl, hstrict] at h
    rw [if_neg Bool.false_ne_true, hlenient]
    dsimp only at h ⊢
    cases hdangling : danglingReferences strict.tables with
    | nil =>
      rw [hdangling] at h
      exact h
    | cons reference references =>
      rw [hdangling] at h
      cases h

/-- A strict run that succeeds does what a lenient one does: both find and read the same schema,
see the same tables in it, and write the same files. -/
theorem generateDrizzle_strict_eq_ok {σ : Type} [FileSystem (StateM σ)] {root : Path}
    {s : Settings} {request : GenerateRequest} {fs fs' : σ} {report : GenerateReport}
    (h : (generateDrizzle root { s with strict := true } request).on fs = (.ok report, fs')) :
    (generateDrizzle root { s with strict := false } request).on fs = (.ok report, fs') := by
  obtain ⟨schema, fs₁, hlocate, h⟩ := on_bind_eq_ok.1 h
  obtain ⟨source, fs₂, hread, h⟩ := on_bind_eq_ok.1 h
  obtain ⟨declared, fs₃, hdeclared, hfinish⟩ := on_bind_eq_ok.1 h
  rw [on_ofExcept] at hdeclared
  obtain ⟨htables, rfl⟩ := Prod.mk.inj hdeclared
  refine on_bind_eq_ok.2 ⟨schema, fs₁, hlocate, ?_⟩
  refine on_bind_eq_ok.2 ⟨source, fs₂, hread, ?_⟩
  refine on_bind_eq_ok.2 ⟨declared, fs₂, ?_, hfinish⟩
  rw [on_ofExcept, declaredTables_strict_eq_ok htables]

end Run

/-- **Being strict rejects, and changes nothing else.**  A lenient reader always has an answer.  A
strict one has the same answer if that leaves nothing out; otherwise it fails with a report that
has the line of the first thing left out and names its table.  What is left out comes in the order
of its lines.  So a strict run that succeeds, on any file system, is a lenient run. -/
theorem strict_only_rejects :
    (∀ source : String, ∃ declared : DeclaredTables,
      DeclaredTables.ofSource .lenient source = .ok declared ∧
      (declared.skipped = [] → DeclaredTables.ofSource .strict source = .ok declared) ∧
      (∀ u rest, declared.skipped = u :: rest → ∃ v p,
        DeclaredTables.ofSource .strict source = .error v ∧
        v.report.position = some p ∧ p.line = u.position.line ∧
        ∃ before behind, v.report.message = before ++ ("table '" ++ u.table ++ "'") ++ behind) ∧
      (declared.skipped.map (·.position.line)).Pairwise (· ≤ ·)) ∧
    ∀ (σ : Type) [FileSystem (StateM σ)] (root : Path) (s : Settings) (request : GenerateRequest)
      (fs fs' : σ) (report : GenerateReport),
      (Run.generateDrizzle root { s with strict := true } request).on fs = (.ok report, fs') →
      (Run.generateDrizzle root { s with strict := false } request).on fs = (.ok report, fs') := by
  refine ⟨fun source => ⟨DeclaredTables.ofText source.toList, ?_, ?_, ?_, ?_⟩, ?_⟩
  · exact DeclaredTables.ofSource_eq .lenient source
  · intro hnone
    rw [DeclaredTables.ofSource_eq, hnone]
    rfl
  · intro u rest hskipped
    refine ⟨u, u.position, ?_, rfl, rfl, u.exists_message_eq⟩
    rw [DeclaredTables.ofSource_eq, hskipped]
    rfl
  · exact pairwise_skipped_ofText source.toList
  · intro σ _ root s request fs fs' report h
    exact Run.generateDrizzle_strict_eq_ok h

/-- A table with an entry that is no column, and one that is never closed. -/
def sampleUnread : String :=
  "export const user = pgTable(\"user\", (t) => (\x7b\n  ...timestamps,\n\x7d))\n" ++
    "export const post = pgTable('post', t => (\x7b\n  id: t.text(),\n"

/-- A project with a schema of one table. -/
def sampleProject : FileTree where
  entries :=
    [(["app"], .directory),
      (["app", "schema.ts"],
        .text "export const user = pgTable(\"user\", (t) => (\x7b id: t.text(), \x7d))")]
  current := ["app"]

theorem strict_only_rejects_sample :
    (∃ v p, DeclaredTables.ofSource .strict sampleUnread = .error v ∧
      v.report.position = some p ∧ p.line = 2 ∧
      ∃ before behind, v.report.message = before ++ ("table '" ++ "user" ++ "'") ++ behind) ∧
    ∃ report fs', report.tableCount = 1 ∧
      (Run.generateDrizzle ⟨""⟩ { strict := true } { schema := some ⟨"schema.ts"⟩ }).on
        sampleProject = (.ok report, fs') ∧
      (Run.generateDrizzle ⟨""⟩ { strict := false } { schema := some ⟨"schema.ts"⟩ }).on
        sampleProject = (.ok report, fs') := by
  constructor
  · obtain ⟨declared, hlenient, -, hstrict, -⟩ := strict_only_rejects.1 sampleUnread
    have hfirst : (DeclaredTables.ofSource .lenient sampleUnread).toOption.bind
        (·.skipped.head?) = some ⟨.unrecognised, "user", ⟨2, 3⟩, "...timestamps"⟩ := by
      decide +kernel
    rw [hlenient] at hfirst
    obtain ⟨rest, hskipped⟩ := List.head?_eq_some_iff.1 hfirst
    exact hstrict _ rest hskipped
  · have hcount : ((Run.generateDrizzle ⟨""⟩ { strict := true }
        { schema := some ⟨"schema.ts"⟩ }).on sampleProject).1.toOption.map (·.tableCount) =
          some 1 := by
      decide +kernel
    rcases hrun : (Run.generateDrizzle ⟨""⟩ { strict := true }
        { schema := some ⟨"schema.ts"⟩ }).on sampleProject with ⟨_ | report, fs'⟩
    · rw [hrun] at hcount
      cases hcount
    · rw [hrun] at hcount
      exact ⟨report, fs', Option.some.inj hcount, rfl,
        strict_only_rejects.2 FileTree ⟨""⟩ {} _ _ _ _ hrun⟩

end SchemaForge
