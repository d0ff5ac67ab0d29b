import SchemaForge.Proofs.FileTree.Likeness
import SchemaForge.Proofs.Run.Success
import SchemaForge.Proofs.Schema.RoundTrip
import SchemaForge.Run.Schema

/-!
# Formatting in place

The formatter reads a schema and writes another text over it, so it must neither lose what the
schema says nor touch anything else.  The new text says the same, so that generating comes to the
same before and after; and it is its own new text, so that formatting again has nothing to do.

## Main definitions

* `Run.prepareFormat`, `Run.writeFormatted` — the two halves of a run of the formatter.

## Main results

* `Run.format_eq` — **a run lays the schema out, and then writes it.**
* `Run.on_generatePrisma_of_rewritten` — a schema in other words gives the same report.
* `Run.format_rewrites_only_schema` — **formatting changes the text of the schema and nothing
  else, and nobody can tell.**
-/

namespace SchemaForge

/-- The path of a file leads to it. -/
theorem FileTree.locate_of_hasFile {t : FileTree} {p : Path} (h : t.hasFile p = true) :
    t.locate p = .ok (t.target p) := by
  rw [hasFile_iff_map] at h
  cases hnode : t.nodeAt p with
  | error e =>
    rw [hnode] at h
    cases h
  | ok node => exact (nodeAt_eq_ok_iff.1 hnode).1

namespace Run

/-! ### Laying out, then writing -/

/-- The report on the text of a schema. -/
def formatReport (schema : Path) (source : String) : Except RunError FormatReport := do
  let d ← (Schema.Document.ofCheckedSource source).mapError .source
  (d.text.mapError .layout).map fun text => { schema, text, changed := text != source }

theorem formatReport_eq_ok {schema : Path} {source : String} {report : FormatReport} :
    formatReport schema source = .ok report ↔ ∃ d text,
      Schema.Document.ofCheckedSource source = .ok d ∧ d.text = .ok text ∧
        report = { schema, text, changed := text != source } := by
  rw [formatReport]
  cases Schema.Document.ofCheckedSource source with
  | error e => simp [Except.mapError, Bind.bind, Except.bind]
  | ok d =>
    cases htext : d.text with
    | error fault => simp [Except.mapError, Except.map, Bind.bind, Except.bind, htext]
    | ok text => simp [Except.mapError, Except.map, Bind.bind, Except.bind, htext, eq_comm]

/-- The report fails with what is wrong with the text of the schema, or because a column of the
schema is too wide. -/
theorem formatReport_eq_error {schema : Path} {source : String} {e : RunError} :
    formatReport schema source = .error e ↔
      (∃ fault, Schema.Document.ofCheckedSource source = .error fault ∧ e = .source fault) ∨
      ∃ d, Schema.Document.ofCheckedSource source = .ok d ∧ ¬ d.FitsColumns ∧
        e = .layout .tooWide := by
  rw [formatReport]
  cases Schema.Document.ofCheckedSource source with
  | error fault => simp [Except.mapError, Bind.bind, Except.bind, eq_comm]
  | ok d =>
    by_cases hfits : d.FitsColumns
    · obtain ⟨text, htext⟩ := Schema.Document.exists_text_iff.2 hfits
      simp [Except.mapError, Except.map, Bind.bind, Except.bind, htext, hfits]
    · have htext := Schema.Document.text_eq_error hfits
      simp [Except.mapError, Except.map, Bind.bind, Except.bind, htext, hfits, eq_comm]

theorem not_isOfWriting_of_formatReport {schema : Path} {source : String} {e : RunError}
    (h : formatReport schema source = .error e) : ¬ e.IsOfWriting := by
  obtain ⟨fault, -, rfl⟩ | ⟨d, -, -, rfl⟩ := formatReport_eq_error.1 h
  · exact id
  · exact id

section

variable {m : Type → Type} [Monad m] [FileSystem m]

/-- All of a run of the formatter but the writing. -/
def prepareFormat (root : Path) (s : Settings) (given : Option Path) : Run m FormatReport := do
  let schema ← locate root given s.prisma.candidates
  let source ← read schema
  ofExcept (formatReport schema source)

/-- Write the text of a report, if it is new, and report. -/
def writeFormatted (report : FormatReport) : Run m FormatReport := do
  if report.changed then
    orStop (.file report.schema) (FileSystem.writeText report.schema report.text)
  return report

/-- **A run lays the schema out, and then writes it** if it is to. -/
theorem format_eq [LawfulMonad m] (root : Path) (s : Settings) (given : Option Path)
    (write : Bool) : (format root s given write : Run m FormatReport) =
      prepareFormat root s given >>= fun report =>
        if write then writeFormatted report else pure report := by
  rw [prepareFormat, bind_assoc]
  refine bind_congr fun schema => ?_
  rw [bind_assoc]
  refine bind_congr fun source => ?_
  rw [formatReport, ofExcept_bind, bind_assoc]
  refine bind_congr fun d => ?_
  rw [ofExcept_map_bind]
  refine bind_congr fun text => ?_
  cases write with
  | true => rfl
  | false => rfl

end

section

variable {σ : Type} [FileSystem (StateM σ)] {v : FileSystem.View σ} {root : Path} {s : Settings}
  {given : Option Path} {fs fs' : σ}

theorem asks_prepareFormat (hv : v.IsLawful) (root : Path) (s : Settings) (given : Option Path) :
    (prepareFormat root s given : Run (StateM σ) FormatReport).Asks := by
  refine (asks_locate hv root given s.prisma.candidates).bind fun schema => ?_
  refine (asks_read hv schema).bind fun source => ?_
  exact asks_ofExcept fun e he => not_isOfWriting_of_formatReport he

/-- A run that is not to write only asks. -/
theorem asks_format (hv : v.IsLawful) (root : Path) (s : Settings) (given : Option Path) :
    (format root s given false : Run (StateM σ) FormatReport).Asks := by
  rw [format_eq]
  exact (asks_prepareFormat hv root s given).bind fun report => asks_pure report

/-- Writing fails as a file that cannot be written. -/
theorem isOfWriting_of_on_writeFormatted {report : FormatReport} {e : RunError}
    (h : (writeFormatted report).on fs = (.error e, fs')) : e.IsOfWriting := by
  rw [writeFormatted] at h
  split at h
  · rcases hwrite : (FileSystem.writeText report.schema report.text : StateM σ _).run fs with
      ⟨refusal | ⟨⟩, fs₁⟩
    · rw [on_bind_of_error (on_orStop hwrite)] at h
      cases h
      trivial
    · rw [on_bind_of_ok (on_orStop hwrite)] at h
      cases h
  · cases h

/-- A run that stops before it writes changes nothing. -/
theorem format_state_of_error (hv : v.IsLawful) {e : RunError}
    (h : (format root s given true).on fs = (.error e, fs')) (he : ¬ e.IsOfWriting) :
    fs' = fs := by
  rw [format_eq] at h
  rcases on_bind_eq_error.1 h with hprepare | ⟨report, fs₁, -, hwrite⟩
  · exact (asks_prepareFormat hv root s given).state hprepare
  · exact absurd (isOfWriting_of_on_writeFormatted hwrite) he

end

/-! ### A schema in other words -/

section

variable {t t' : FileTree} {d : Dialect} {root : Path} {s : Settings} {given : Option Path}
  {request : GenerateRequest} {candidates : List Path} {schema : Path} {source source' : String}

theorem hasFile_of_firstFile? {paths : List Path}
    (h : ((firstFile? paths : StateM FileTree _).run t).1 = some schema) :
    t.hasFile schema = true := by
  induction paths with
  | nil => cases h
  | cons p rest ih =>
    have hrun : (FileSystem.isFile p : StateM FileTree _).run t = (t.hasFile p, t) := rfl
    rw [firstFile?, StateT.run_bind, hrun] at h
    cases hfile : t.hasFile p with
    | true =>
      rw [hfile] at h
      cases h
      exact hfile
    | false =>
      rw [hfile] at h
      exact ih h

/-- A schema that is found is a file. -/
theorem hasFile_of_locate (h : (locate root given candidates).on t = (.ok schema, t')) :
    t.hasFile schema = true := by
  cases given with
  | some p =>
    have hrun : (FileSystem.isFile (root.resolve p) : StateM FileTree _).run t =
      (t.hasFile (root.resolve p), t) := rfl
    rw [locate] at h
    replace h := (on_bind_of_ok (on_liftM hrun)).symm.trans h
    cases hfile : t.hasFile (root.resolve p) with
    | true =>
      rw [hfile] at h
      cases h
      exact hfile
    | false =>
      rw [hfile] at h
      cases h
  | none =>
    rw [locate] at h
    rcases hrun : (firstFile? (candidates.map root.resolve) : StateM FileTree _).run t with
      ⟨found, t₁⟩
    replace h := (on_bind_of_ok (on_liftM hrun)).symm.trans h
    cases found with
    | some path =>
      cases h
      exact hasFile_of_firstFile? (congrArg Prod.fst hrun)
    | none => cases h

/-- A schema that is found is found in a tree that is like the first. -/
theorem on_locate_of_alike (halike : t.Alike t')
    (h : ((locate root given candidates).on t).1 = .ok schema) :
    (locate root given candidates).on t = (.ok schema, t) ∧
      (locate root given candidates).on t' = (.ok schema, t') := by
  have hlawful := FileTree.isLawful_view
  have hblind := (blind_locate root given candidates t t' halike).1
  rcases hrun : (locate root given candidates).on t with ⟨outcome, t₁⟩
  rcases hrun' : (locate root given candidates).on t' with ⟨outcome', t₁'⟩
  obtain rfl := (asks_locate hlawful _ _ _).state hrun
  obtain rfl := (asks_locate hlawful _ _ _).state hrun'
  rw [hrun] at h
  obtain rfl : outcome = .ok schema := h
  rw [hrun, hrun'] at hblind
  obtain rfl : outcome' = .ok schema := hblind
  exact ⟨rfl, rfl⟩

/-- What is asked of a text is decided by the document in it. -/
theorem reportOf_congr
    (h : Schema.Document.ofCheckedSource source' = Schema.Document.ofCheckedSource source)
    (root : Path) (s : Settings) (request : GenerateRequest) (schema : Path) :
    reportOf .prisma root s request schema source' =
      reportOf .prisma root s request schema source := by
  rw [reportOf, reportOf, tablesOf, tablesOf, documentTables, documentTables, h]

theorem on_prepare_eq
    (hlocate : (locate root request.schema (sourceSettings s d).candidates).on t = (.ok schema, t))
    (hread : t.read schema = .ok source) :
    (prepare d root s request).on t = (reportOf d root s request schema source, t) := by
  rw [prepare, on_bind_of_ok hlocate, on_bind_of_ok (on_read_eq_ok.2 hread), on_ofExcept]

theorem blind_writeReport (report : GenerateReport) : Blind (writeReport report) :=
  (blind_writeFiles report.files).bind fun _ => blind_pure report

/-- **A schema in other words gives the same report.**  Trees that are alike, and that have at the
place of the schema two texts of one document, answer a run in the same way, whatever it was asked
for and whatever becomes of it. -/
theorem on_generatePrisma_of_rewritten (halike : t.Alike t')
    (hlocate : ((locate root request.schema s.prisma.candidates).on t).1 = .ok schema)
    (hnode : t.node? (t.target schema) = some (.text source))
    (hnode' : t'.node? (t.target schema) = some (.text source'))
    (hdocument : Schema.Document.ofCheckedSource source' =
      Schema.Document.ofCheckedSource source) :
    ((generatePrisma root s request).on t').1 = ((generatePrisma root s request).on t).1 := by
  obtain ⟨hrun, hrun'⟩ := on_locate_of_alike halike hlocate
  -- the path of the schema leads to both texts
  have hplace := FileTree.locate_of_hasFile (hasFile_of_locate hrun)
  have hplace' := FileTree.locate_of_hasFile (hasFile_of_locate hrun')
  have hprepare := on_prepare_eq (d := .prisma) hrun (FileTree.read_eq_ok_iff.2 ⟨hplace, hnode⟩)
  rw [← halike.target_eq] at hnode'
  have hprepare' := on_prepare_eq (d := .prisma) hrun'
    (FileTree.read_eq_ok_iff.2 ⟨hplace', hnode'⟩)
  rw [reportOf_congr hdocument] at hprepare'
  show ((generate .prisma root s request).on t').1 = ((generate .prisma root s request).on t).1
  rw [generate_eq]
  cases hreport : reportOf .prisma root s request schema source with
  | error e =>
    rw [hreport] at hprepare hprepare'
    rw [on_bind_of_error hprepare, on_bind_of_error hprepare']
  | ok report =>
    rw [hreport] at hprepare hprepare'
    rw [on_bind_of_ok hprepare, on_bind_of_ok hprepare']
    exact (blind_writeReport report t t' halike).1

end

/-! ### Formatting -/

section

variable {t t' : FileTree} {root : Path} {s : Settings} {given : Option Path}
  {report : FormatReport}

theorem on_prepareFormat_eq_ok :
    (prepareFormat root s given).on t = (.ok report, t) ↔ ∃ source,
      (locate root given s.prisma.candidates).on t = (.ok report.schema, t) ∧
      t.read report.schema = .ok source ∧ formatReport report.schema source = .ok report := by
  have hlawful := FileTree.isLawful_view
  constructor
  · intro h
    obtain ⟨schema, t₁, hlocate, h⟩ := on_bind_eq_ok.1 h
    obtain rfl := (asks_locate hlawful _ _ _).state hlocate
    obtain ⟨source, t₂, hread, h⟩ := on_bind_eq_ok.1 h
    obtain rfl := (asks_read hlawful _).state hread
    have hreport : formatReport schema source = .ok report := (Prod.mk.inj h).1
    obtain ⟨d, text, -, -, rfl⟩ := formatReport_eq_ok.1 hreport
    exact ⟨source, hlocate, on_read_eq_ok.1 hread, hreport⟩
  · rintro ⟨source, hlocate, hread, hreport⟩
    rw [prepareFormat, on_bind_of_ok hlocate, on_bind_of_ok (on_read_eq_ok.2 hread), on_ofExcept,
      hreport]

/-- A report is written over a text: afterwards the file holds the text of the report, and nothing
else has changed. -/
theorem on_writeFormatted_eq_ok {source : String} {written : FormatReport}
    (hread : t.read report.schema = .ok source)
    (hchanged : report.changed = (report.text != source))
    (h : (writeFormatted report).on t = (.ok written, t')) :
    written = report ∧ t'.read report.schema = .ok report.text ∧ t.Alike t' ∧
      ∀ l, l ≠ t.target report.schema → t'.node? l = t.node? l := by
  rw [writeFormatted] at h
  split at h
  · obtain ⟨⟨⟩, t₁, hwrite, hreport⟩ := on_bind_eq_ok.1 h
    cases hreport
    rcases hrun : (FileSystem.writeText report.schema report.text : StateM FileTree _).run t with
      ⟨refusal | ⟨⟩, t₁⟩
    · rw [on_orStop hrun] at hwrite
      cases hwrite
    · rw [on_orStop hrun] at hwrite
      cases hwrite
      have hnode := (FileTree.read_eq_ok_iff.1 hread).2
      obtain ⟨-, -, rfl⟩ := FileTree.putFile_eq_ok (FileTree.run_commit_eq_ok_iff.1 hrun)
      exact ⟨rfl, FileTree.read_of_writeText hrun, .set_text hnode report.text,
        fun l hl => FileTree.node?_set_of_ne t hl _⟩
  · next hsame =>
    cases h
    have htext : report.text = source := by simpa [hchanged] using hsame
    rw [← htext] at hread
    exact ⟨rfl, hread, .refl t, fun _ _ => rfl⟩

/-- **Formatting changes the text of the schema and nothing else, and nobody can tell.**  A run
that is not to write, or that fails before it writes, changes nothing.  One that writes leaves its
text in the file of the schema and everything else as it was; the same run again has nothing to
do; and a run that generates files from that schema comes to the same before and after, whatever
it was asked for. -/
theorem format_rewrites_only_schema {σ : Type} [FileSystem (StateM σ)] {v : FileSystem.View σ}
    (hv : v.IsLawful) (root : Path) (s : Settings) (given : Option Path) :
    (∀ (fs fs' : σ) outcome, (format root s given false).on fs = (outcome, fs') → fs' = fs) ∧
    (∀ (fs fs' : σ) e, (format root s given true).on fs = (.error e, fs') →
      ¬ e.IsOfWriting → fs' = fs) ∧
    ∀ (t t' : FileTree) report, (format root s given true).on t = (.ok report, t') →
      t'.read report.schema = .ok report.text ∧
      (t'.current = t.current ∧ ∀ l, l ≠ t.target report.schema → t'.node? l = t.node? l) ∧
      (format root s given true).on t' = (.ok { report with changed := false }, t') ∧
      ∀ (root' : Path) (s' : Settings) (request : GenerateRequest) (schema : Path),
        ((locate root' request.schema s'.prisma.candidates).on t).1 = .ok schema →
        t.target schema = t.target report.schema →
        ((generatePrisma root' s' request).on t').1 =
          ((generatePrisma root' s' request).on t).1 := by
  refine ⟨fun fs fs' outcome h => (asks_format hv root s given).state h,
    fun fs fs' e h he => format_state_of_error hv h he, fun t t' report h => ?_⟩
  rw [format_eq] at h
  obtain ⟨planned, t₁, hprepare, hwriting⟩ := on_bind_eq_ok.1 h
  obtain rfl := (asks_prepareFormat FileTree.isLawful_view root s given).state hprepare
  obtain ⟨source, hlocate, hread, hreport⟩ := on_prepareFormat_eq_ok.1 hprepare
  obtain ⟨d, text, hd, htext, hplanned⟩ := formatReport_eq_ok.1 hreport
  have hchanged : planned.changed = (planned.text != source) := by rw [hplanned]
  obtain rfl : planned.text = text := by rw [hplanned]
  obtain ⟨rfl, hread', halike, hother⟩ := on_writeFormatted_eq_ok hread hchanged hwriting
  have hd' := Schema.ofCheckedSource_of_text hd htext
  refine ⟨hread', ⟨halike.current_eq, hother⟩, ?_, ?_⟩
  · -- the schema is found again, and its text is laid out already
    have hlocate' := (on_locate_of_alike halike (congrArg Prod.fst hlocate)).2
    have hreport' : formatReport report.schema report.text =
        .ok { report with changed := false } := by
      refine formatReport_eq_ok.2 ⟨d, report.text, hd', htext, ?_⟩
      rw [bne_self_eq_false]
    have hprepare' : (prepareFormat root s given).on t' =
        (.ok { report with changed := false }, t') :=
      on_prepareFormat_eq_ok.2 ⟨report.text, hlocate', hread', hreport'⟩
    rw [format_eq, on_bind_of_ok hprepare']
    rfl
  · intro root' s' request schema hfound hplace
    refine on_generatePrisma_of_rewritten halike hfound ?_ ?_ (hd'.trans hd.symm)
    · rw [hplace]
      exact (FileTree.read_eq_ok_iff.1 hread).2
    · rw [hplace, ← halike.target_eq]
      exact (FileTree.read_eq_ok_iff.1 hread').2

end

/-- A project with a schema that is not laid out. -/
def untidyProject : FileTree where
  entries := [(["app"], .directory),
    (["app", "schema.prisma"], .text "model A \x7b\n id   Int\n\x7d\n")]
  current := ["app"]

/-- The schema of that project. -/
def untidySchema : Path := ⟨"schema.prisma"⟩

theorem format_rewrites_only_schema_sample :
    (((format ⟨""⟩ {} (some untidySchema) false).on untidyProject).2 = untidyProject ∧
      ∃ e, (format ⟨""⟩ {} (some ⟨"absent"⟩) true).on untidyProject = (.error e, untidyProject)) ∧
    ∃ report t', (format ⟨""⟩ {} (some untidySchema) true).on untidyProject = (.ok report, t') ∧
      report.changed = true ∧ t'.read report.schema = .ok report.text ∧
      (format ⟨""⟩ {} (some untidySchema) true).on t' =
        (.ok { report with changed := false }, t') ∧
      ((generatePrisma ⟨""⟩ {} { schema := some untidySchema }).on t').1 =
        ((generatePrisma ⟨""⟩ {} { schema := some untidySchema }).on untidyProject).1 := by
  have hlawful := FileTree.isLawful_view
  refine ⟨⟨?_, ?_⟩, ?_⟩
  · have hasks := (format_rewrites_only_schema hlawful ⟨""⟩ {} (some untidySchema)).1
    exact hasks untidyProject _ _ (Prod.mk.eta (p := (format _ _ _ _).on untidyProject)).symm
  · have hcause : ((format ⟨""⟩ {} (some ⟨"absent"⟩) true).on untidyProject).1 =
        .error (.schemaMissing ⟨"absent"⟩) := by
      decide +kernel
    rcases hrun : (format ⟨""⟩ {} (some ⟨"absent"⟩) true).on untidyProject with ⟨outcome, t'⟩
    rw [hrun] at hcause
    obtain rfl : outcome = .error (.schemaMissing ⟨"absent"⟩) := hcause
    have hfails := (format_rewrites_only_schema hlawful ⟨""⟩ {} (some ⟨"absent"⟩)).2.1
    obtain rfl := hfails untidyProject t' _ hrun id
    exact ⟨_, rfl⟩
  · rcases hrun : (format ⟨""⟩ {} (some untidySchema) true).on untidyProject with ⟨outcome, t'⟩
    have hcheck : ((format ⟨""⟩ {} (some untidySchema) true).on untidyProject).1.toOption.map
        (fun report => (report.changed, report.schema)) = some (true, untidySchema) := by
      decide +kernel
    have hfound : ((locate ⟨""⟩ (some untidySchema) SourceSettings.prisma.candidates).on
        untidyProject).1 = .ok untidySchema := by
      decide +kernel
    rw [hrun] at hcheck
    cases outcome with
    | error e => cases hcheck
    | ok report =>
      obtain ⟨hchanged, hschema⟩ := Prod.mk.inj (Option.some.inj hcheck)
      obtain ⟨hread, -, hagain, hgenerate⟩ :=
        (format_rewrites_only_schema hlawful ⟨""⟩ {} (some untidySchema)).2.2 _ t' report hrun
      exact ⟨report, t', rfl, hchanged, hread, hagain,
        hgenerate ⟨""⟩ {} { schema := some untidySchema } untidySchema hfound (by rw [hschema])⟩

end Run

end SchemaForge
