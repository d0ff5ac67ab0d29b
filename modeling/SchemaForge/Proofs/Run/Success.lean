import SchemaForge.Proofs.FileTree.Growth
import SchemaForge.Proofs.Run.Preparation
import SchemaForge.Proofs.Run.Strict
import SchemaForge.Proofs.Run.Writing

/-!
# Runs that succeed

A run that succeeds has written the files of its report, and those are the files that it would
write again: the second time every directory and every file is there already, so nothing changes.

## Main definitions

* `Run.Stands` — a file is in its directory.

## Main results

* `Run.stands_of_writeFiles` — the files of a row of steps are in their directories.
* `Run.on_writeFiles_of_stands` — **writing files that are there changes nothing.**
* `Run.successful_run_writes_report` — **a run writes its report and nothing else, and a second
  one changes nothing.**
-/

namespace SchemaForge.Run

open FileSystem.View

variable {f : GeneratedFile} {files : List GeneratedFile} {t t' t₁ : FileTree}

/-- A file is there with its text, in a directory that is there. -/
structure Stands (t : FileTree) (f : GeneratedFile) : Prop where
  /-- The directory is there. -/
  parent : t.HasParent f.path
  /-- The file is there. -/
  read : t.read f.path = .ok f.content

theorem Stands.of_grows (h : Stands t f) (hgrows : t.Grows t')
    (hnode : t'.node? (t.target f.path) = some (.text f.content)) : Stands t' f where
  parent := hgrows.hasParent h.parent
  read := hgrows.read h.read hnode

/-! ### Steps and rows of steps -/

theorem ParentMade.grows (h : ParentMade f.path t t₁) : t.Grows t₁ ∧ t₁.HasParent f.path := by
  unfold ParentMade at h
  cases hparent : f.path.parent? with
  | none =>
    rw [hparent] at h
    subst h
    exact ⟨.refl _, fun parent hsome => by cases hparent.symm.trans hsome⟩
  | some parent =>
    rw [hparent] at h
    have hgrows := FileTree.grows_createDirectories parent t
    rw [h] at hgrows
    refine ⟨hgrows, fun parent' hsome => ?_⟩
    cases hparent.symm.trans hsome
    exact FileTree.hasDirectory_of_createDirectories h

theorem stands_of_writeFile (h : (writeFile f).on t = (.ok (), t')) :
    t.Grows t' ∧ Stands t' f := by
  obtain ⟨t₁, hmade, hwrite⟩ := on_writeFile_eq_ok.1 h
  obtain ⟨hgrows, hparent⟩ := hmade.grows
  have hgrows' := FileTree.grows_writeText f.path f.content t₁
  rw [hwrite] at hgrows'
  exact ⟨hgrows.trans hgrows', hgrows'.hasParent hparent, FileTree.read_of_writeText hwrite⟩

/-- The files of a row of steps are in their directories. -/
theorem stands_of_writeFiles (hapart : files.Pairwise fun f g => f.path.NamedApart g.path)
    (h : (writeFiles files).on t = (.ok (), t')) :
    t.Grows t' ∧ ∀ f ∈ files, Stands t' f := by
  have hholds := (frame_writeFiles FileTree.isLawful_view hapart h).2
  induction files generalizing t with
  | nil =>
    cases h
    exact ⟨.refl _, fun f hf => absurd hf List.not_mem_nil⟩
  | cons f rest ih =>
    obtain ⟨t₁, hfirst, hrest⟩ := on_writeFiles_cons_eq_ok.1 h
    obtain ⟨hgrows, hstands⟩ := stands_of_writeFile hfirst
    obtain ⟨hgrows', hstands'⟩ := ih (List.pairwise_cons.1 hapart).2 hrest
      fun g hg => hholds g (List.mem_cons_of_mem f hg)
    refine ⟨hgrows.trans hgrows', List.forall_mem_cons.2 ⟨hstands.of_grows hgrows' ?_, hstands'⟩⟩
    rw [← hgrows'.target_eq]
    exact hholds f List.mem_cons_self

/-- **Writing files that are there changes nothing.** -/
theorem on_writeFiles_of_stands (h : ∀ f ∈ files, Stands t f) :
    (writeFiles files).on t = (.ok (), t) := by
  induction files with
  | nil => rfl
  | cons f rest ih =>
    obtain ⟨hf, hrest⟩ := List.forall_mem_cons.1 h
    refine on_writeFiles_cons_eq_ok.2 ⟨t, ?_, ih hrest⟩
    refine on_writeFile_eq_ok.2 ⟨t, ?_, FileTree.run_writeText_of_read hf.read⟩
    unfold ParentMade
    cases hparent : f.path.parent? with
    | none => rfl
    | some parent => exact FileTree.run_createDirectories_of_hasDirectory (hf.parent parent hparent)

/-! ### Runs -/

section

variable {d : Dialect} {root : Path} {s : Settings} {request : GenerateRequest}
  {report : GenerateReport}

theorem on_read_eq (schema : Path) (t : FileTree) :
    (read schema).on t = ((t.read schema).mapError (.unreadable schema), t) :=
  on_orStop rfl

theorem on_read_eq_ok {schema : Path} {source : String} :
    (read schema).on t = (.ok source, t) ↔ t.read schema = .ok source := by
  rw [on_read_eq]
  cases t.read schema with
  | error e =>
    constructor
    · intro h
      cases h
    · intro h
      cases h
  | ok text =>
    constructor
    · rintro ⟨⟩
      rfl
    · rintro ⟨⟩
      rfl

/-- What a run decided, it decides again on a tree that has grown, if it finds the same schema
there. -/
theorem on_prepare_of_grows (h : (prepare d root s request).on t = (.ok report, t))
    (hgrows : t.Grows t')
    (hlocate : ((locate root request.schema (sourceSettings s d).candidates).on t').1 =
      .ok report.schema)
    (hschema : ∀ text, t.node? (t.target report.schema) = some (.text text) →
      t'.node? (t.target report.schema) = some (.text text)) :
    (prepare d root s request).on t' = (.ok report, t') := by
  have hlawful := FileTree.isLawful_view
  obtain ⟨-, schema, source, -, hread, hreport⟩ := (on_prepare_eq_ok hlawful).1 h
  obtain ⟨rfl, -⟩ := reportOf_eq_ok hreport
  have hread := on_read_eq_ok.1 hread
  have hread' := hgrows.read hread (hschema source (FileTree.read_eq_ok_iff.1 hread).2)
  rcases hagain : (locate root request.schema (sourceSettings s d).candidates).on t' with
    ⟨outcome, t''⟩
  obtain rfl := (asks_locate hlawful _ _ _).state hagain
  rw [hagain] at hlocate
  obtain rfl : outcome = .ok report.schema := hlocate
  exact (on_prepare_eq_ok hlawful).2
    ⟨rfl, report.schema, source, hagain, on_read_eq_ok.2 hread', hreport⟩

/-- **A run writes its report and nothing else, and a second one changes nothing.**  Every file of
the report can be read, nothing else has changed but for directories that were made above the
files, and the report has no files only if there are no tables.  If the schema is none of the files
and is found again, the same run again gives the same report on the same tree. -/
theorem successful_run_writes_report (d : Dialect) (root : Path) (s : Settings)
    (request : GenerateRequest) {t t' : FileTree} {report : GenerateReport}
    (h : (generate d root s request).on t = (.ok report, t')) :
    (∀ f ∈ report.files, t'.read f.path = .ok f.content) ∧
    (t'.current = t.current ∧ ∀ l, t'.node? l = t.node? l ∨
      (∃ f ∈ report.files, l = t.target f.path) ∨
      (∃ f ∈ report.files, ∃ (p : Path) (below : List Component), below ≠ [] ∧
        f.path.components = p.components ++ below ∧ l = t.target p) ∧
        t.node? l = none ∧ t'.node? l = some .directory) ∧
    (report.files = [] ↔ report.tableCount = 0) ∧
    ((∀ f ∈ report.files, t.target f.path ≠ t.target report.schema) →
      ((locate root request.schema (sourceSettings s d).candidates).on t').1 = .ok report.schema →
      (generate d root s request).on t' = (.ok report, t')) := by
  have hlawful := FileTree.isLawful_view
  rw [generate_eq] at h
  obtain ⟨planned, t₁, hprepare, hwriting⟩ := on_bind_eq_ok.1 h
  obtain rfl := (asks_prepare hlawful d root s request).state hprepare
  obtain ⟨rfl, hwrite⟩ := on_writeReport_eq_ok.1 hwriting
  have hapart := pairwise_namedApart_of_on_prepare hlawful hprepare
  obtain ⟨hframe, hholds⟩ := frame_writeFiles hlawful hapart hwrite
  obtain ⟨hgrows, hstands⟩ := stands_of_writeFiles hapart hwrite
  refine ⟨fun f hf => (hstands f hf).read, ⟨hgrows.current_eq, fun l => ?_⟩, ?_, ?_⟩
  · rcases hframe.node?_eq l with heq | hwritten | ⟨⟨f, hf, p, hp, rfl⟩, hmade⟩
    · exact .inl heq
    · exact .inr (.inl hwritten)
    · obtain ⟨below, hne, -, hcomponents⟩ := hp.exists_components_eq
      exact .inr (.inr ⟨⟨f, hf, p, below, hne, hcomponents, rfl⟩, hmade⟩)
  · obtain ⟨-, schema, source, -, -, hreport⟩ := (on_prepare_eq_ok hlawful).1 hprepare
    obtain ⟨-, o, tables, hcount, hplan⟩ := reportOf_eq_ok hreport
    rw [(plan_eq_ok_iff.1 hplan).1, plannedFiles_eq_nil_iff, hcount, List.length_eq_zero_iff]
  · intro hother hlocate
    have hprepare' := on_prepare_of_grows hprepare hgrows hlocate fun text hnode => by
      refine hframe.node?_eq_some hnode ?_
      rintro ⟨f, hf, heq⟩
      exact hother f hf heq.symm
    rw [generate_eq]
    exact on_bind_eq_ok.2 ⟨report, t', hprepare',
      on_writeReport_eq_ok.2 ⟨rfl, on_writeFiles_of_stands hstands⟩⟩

end

/-- A run on the project with one table. -/
def sampleRequest : GenerateRequest where
  schema := some ⟨"schema.ts"⟩

theorem successful_run_writes_report_sample :
    ∃ report t', (generate .drizzle ⟨""⟩ {} sampleRequest).on sampleProject = (.ok report, t') ∧
      report.files ≠ [] ∧ (∀ f ∈ report.files, t'.read f.path = .ok f.content) ∧
      (generate .drizzle ⟨""⟩ {} sampleRequest).on t' = (.ok report, t') := by
  rcases hrun : (generate .drizzle ⟨""⟩ {} sampleRequest).on sampleProject with ⟨outcome, t'⟩
  have hcheck : (((generate .drizzle ⟨""⟩ {} sampleRequest).on sampleProject).1.toOption.map
      fun report => decide (report.tableCount ≠ 0 ∧
        (∀ f ∈ report.files, sampleProject.target f.path ≠ sampleProject.target report.schema) ∧
        ((locate ⟨""⟩ sampleRequest.schema SourceSettings.drizzle.candidates).on
          ((generate .drizzle ⟨""⟩ {} sampleRequest).on sampleProject).2).1 =
            .ok report.schema)) = some true := by
    decide +kernel
  rw [hrun] at hcheck
  cases outcome with
  | error e => cases hcheck
  | ok report =>
    obtain ⟨hcount, hother, hlocate⟩ := of_decide_eq_true (Option.some.inj hcheck)
    obtain ⟨hread, -, hempty, hagain⟩ :=
      successful_run_writes_report .drizzle ⟨""⟩ {} sampleRequest hrun
    exact ⟨report, t', rfl, mt hempty.1 hcount, hread, hagain hother hlocate⟩

end SchemaForge.Run
