import SchemaForge.Proofs.Artifact.Collision
import SchemaForge.Proofs.FileSystem
import SchemaForge.Proofs.Run.Outcome

/-!
# What a run decides before it writes

Both kinds of run find a schema, read it and plan its files.  All of that only asks, and the
writing that follows has nothing left to decide.

## Main definitions

* `Run.generate` — a run on a schema of either language.
* `Run.prepare` — all of a run but the writing.
* `Run.Asks` — a run leaves the file system as it is.

## Main results

* `Run.generate_eq` — **a run decides what to write, and then writes it.**
* `Run.asks_prepare` — what is decided before writing leaves the file system as it is.
* `Run.on_prepare_eq_ok` — a run that gets to writing has found a schema and read it.
* `Run.pairwise_namedApart_of_on_prepare` — planned files have different names.
-/

namespace SchemaForge

/-- A cause is that of a directory or file that cannot be made. -/
def RunError.IsOfWriting : RunError → Prop
  | .directory .. => True
  | .file .. => True
  | _ => False

namespace Run

/-! ### The parts of a run -/

/-- Where schemas of a language are looked for, and where their files go. -/
def sourceSettings (s : Settings) : Dialect → SourceSettings
  | .drizzle => s.drizzle
  | .prisma => s.prisma

/-- The tables of a text, and what is left out of it. -/
def tablesOf (s : Settings) (source : String) :
    Dialect → Except RunError (List Table × List Declaration.Unread)
  | .drizzle => (declaredTables s source).map fun declared => (declared.tables, declared.skipped)
  | .prisma => (documentTables s source).map fun tables => (tables, [])

/-- The report of a run that writes all it has planned. -/
def planReport (s : Settings) (layout : Layout) (schema : Path) (tables : List Table)
    (skipped : List Declaration.Unread) : Except RunError GenerateReport :=
  if tables.isEmpty then
    .ok { schema, tableCount := tables.length, files := [], skipped }
  else
    match plan (s.emitOptions layout) tables with
    | .ok files => .ok { schema, tableCount := tables.length, files, skipped }
    | .error c => .error (.collision c)

/-- The report of a run on a text of a schema. -/
def reportOf (d : Dialect) (root : Path) (s : Settings) (request : GenerateRequest) (schema : Path)
    (source : String) : Except RunError GenerateReport := do
  let (tables, skipped) ← tablesOf s source d
  -- services follow a requested directory of schemas in the description language only
  let follow := d == .prisma
  planReport s (s.layoutFor (sourceSettings s d) follow root request schema) schema tables skipped

variable {m : Type → Type} [Monad m] [FileSystem m]

/-- All of a run but the writing. -/
def prepare (d : Dialect) (root : Path) (s : Settings) (request : GenerateRequest) :
    Run m GenerateReport := do
  let schema ← locate root request.schema (sourceSettings s d).candidates
  let source ← read schema
  ofExcept (reportOf d root s request schema source)

/-- Generate files from a schema of either language. -/
def generate (d : Dialect) (root : Path) (s : Settings) (request : GenerateRequest) :
    Run m GenerateReport :=
  match d with
  | .drizzle => generateDrizzle root s request
  | .prisma => generatePrisma root s request

/-- Write what a report says, and report it. -/
def writeReport (report : GenerateReport) : Run m GenerateReport := do
  writeFiles report.files
  return report

/-! ### Deciding, then writing -/

section

omit [FileSystem m]

variable [LawfulMonad m] {α β : Type}

theorem ofExcept_ok_bind (a : α) (next : α → Run m β) : (ofExcept (.ok a) >>= next) = next a := by
  show ExceptT.mk (pure (Except.ok a) >>= ExceptT.bindCont next) = next a
  rw [pure_bind]
  rfl

theorem ofExcept_error_bind (e : RunError) (next : α → Run m β) :
    (ofExcept (.error e) >>= next) = ofExcept (.error e) := by
  show ExceptT.mk (pure (Except.error e) >>= ExceptT.bindCont next) = _
  rw [pure_bind]
  rfl

theorem ofExcept_bind (outcome : Except RunError α) (next : α → Except RunError β) :
    (ofExcept (outcome >>= next) : Run m β) =
      ofExcept outcome >>= fun a => ofExcept (next a) := by
  cases outcome with
  | error e =>
    rw [ofExcept_error_bind]
    rfl
  | ok a =>
    rw [ofExcept_ok_bind]
    rfl

theorem ofExcept_map_bind {γ : Type} (outcome : Except RunError α) (f : α → γ)
    (next : γ → Run m β) :
    (ofExcept (outcome.map f) >>= next) = ofExcept outcome >>= fun a => next (f a) := by
  cases outcome with
  | error e =>
    rw [ofExcept_error_bind]
    exact ofExcept_error_bind e next
  | ok a =>
    rw [ofExcept_ok_bind]
    exact ofExcept_ok_bind (f a) next

end

variable [LawfulMonad m]

theorem finish_eq (s : Settings) (layout : Layout) (schema : Path) (tables : List Table)
    (skipped : List Declaration.Unread) :
    (finish s layout schema tables skipped : Run m GenerateReport) =
      ofExcept (planReport s layout schema tables skipped) >>= writeReport := by
  rw [finish, planReport]
  by_cases hempty : tables.isEmpty = true
  · rw [if_pos hempty, if_pos hempty, ofExcept_ok_bind, pure_bind, writeReport, writeFiles,
      pure_bind]
  · rw [if_neg hempty, if_neg hempty, emit]
    cases plan (s.emitOptions layout) tables with
    | error c =>
      show (ofExcept (.error (.collision c)) >>= _ : Run m GenerateReport) = _
      rw [ofExcept_error_bind, ofExcept_error_bind]
    | ok files =>
      show ((writeFiles files >>= fun _ => pure files) >>= _ : Run m GenerateReport) = _
      rw [ofExcept_ok_bind, bind_assoc, writeReport]
      refine bind_congr fun _ => ?_
      rw [pure_bind]

/-- **A run decides what to write, and then writes it.** -/
theorem generate_eq (d : Dialect) (root : Path) (s : Settings) (request : GenerateRequest) :
    (generate d root s request : Run m GenerateReport) =
      prepare d root s request >>= writeReport := by
  rw [prepare, bind_assoc]
  cases d with
  | drizzle =>
    show generateDrizzle root s request = _
    refine bind_congr fun schema => ?_
    rw [bind_assoc]
    refine bind_congr fun source => ?_
    rw [reportOf, ofExcept_bind, bind_assoc, tablesOf, ofExcept_map_bind]
    refine bind_congr fun declared => ?_
    exact finish_eq ..
  | prisma =>
    show generatePrisma root s request = _
    refine bind_congr fun schema => ?_
    rw [bind_assoc]
    refine bind_congr fun source => ?_
    rw [reportOf, ofExcept_bind, bind_assoc, tablesOf, ofExcept_map_bind]
    refine bind_congr fun tables => ?_
    exact finish_eq ..

/-! ### Deciding changes nothing -/

/-- A run asks only: it leaves the file system as it is, and nothing that it cannot make stops
it. -/
structure Asks {σ α : Type} (program : Run (StateM σ) α) : Prop where
  /-- It leaves the file system as it is. -/
  state {fs fs' : σ} {outcome : Except RunError α} (h : program.on fs = (outcome, fs')) : fs' = fs
  /-- It makes nothing. -/
  error {fs fs' : σ} {e : RunError} (h : program.on fs = (.error e, fs')) : ¬ e.IsOfWriting

section

variable {σ α β : Type}

theorem Asks.bind {program : Run (StateM σ) α} {next : α → Run (StateM σ) β}
    (h : program.Asks) (hnext : ∀ a, (next a).Asks) : (program >>= next).Asks where
  state := by
    intro fs fs' outcome hrun
    rcases hfirst : program.on fs with ⟨_ | a, fs₁⟩
    · rw [on_bind_of_error hfirst] at hrun
      cases hrun
      exact h.state hfirst
    · rw [on_bind_of_ok hfirst] at hrun
      exact ((hnext a).state hrun).trans (h.state hfirst)
  error := by
    intro fs fs' e hrun
    rcases on_bind_eq_error.1 hrun with hfirst | ⟨a, fs₁, -, hsecond⟩
    · exact h.error hfirst
    · exact (hnext a).error hsecond

theorem asks_ofExcept {outcome : Except RunError α}
    (h : ∀ e, outcome = .error e → ¬ e.IsOfWriting) :
    (ofExcept outcome : Run (StateM σ) α).Asks where
  state hrun := (Prod.mk.inj hrun).2.symm
  error hrun := h _ (Prod.mk.inj hrun).1

theorem asks_pure (a : α) : (pure a : Run (StateM σ) α).Asks :=
  asks_ofExcept fun _ h => by cases h

theorem asks_throw {e : RunError} (h : ¬ e.IsOfWriting) :
    (throw e : Run (StateM σ) α).Asks :=
  asks_ofExcept fun _ he => by
    cases he
    exact h

theorem asks_liftM {call : StateM σ α} (h : ∀ fs, (call.run fs).2 = fs) :
    (liftM call : Run (StateM σ) α).Asks where
  state {fs _ _} hrun := by
    rw [on_liftM (Prod.mk.eta (p := call.run fs)).symm] at hrun
    exact (Prod.mk.inj hrun).2.symm.trans (h fs)
  error {fs _ _} hrun := by
    rw [on_liftM (Prod.mk.eta (p := call.run fs)).symm] at hrun
    cases (Prod.mk.inj hrun).1

variable [FileSystem (StateM σ)] {v : FileSystem.View σ}

theorem run_firstFile?_snd (hv : v.IsLawful) (paths : List Path) (fs : σ) :
    ((firstFile? paths : StateM σ _).run fs).2 = fs := by
  induction paths with
  | nil => rfl
  | cons p rest ih =>
    have hstate := hv.isFile_state p fs
    rcases hfile : (FileSystem.isFile p : StateM σ _).run fs with ⟨found, fs₁⟩
    rw [hfile] at hstate
    obtain rfl : fs₁ = fs := hstate
    rw [firstFile?, StateT.run_bind, hfile]
    cases found with
    | true => rfl
    | false => exact ih

theorem asks_locate (hv : v.IsLawful) (root : Path) (given : Option Path)
    (candidates : List Path) :
    (locate root given candidates : Run (StateM σ) Path).Asks := by
  cases given with
  | some p =>
    refine (asks_liftM (hv.isFile_state (root.resolve p))).bind fun found => ?_
    cases found with
    | true => exact asks_pure (root.resolve p)
    | false => exact asks_throw id
  | none =>
    refine (asks_liftM (run_firstFile?_snd hv (candidates.map root.resolve))).bind fun found => ?_
    cases found with
    | some path => exact asks_pure path
    | none => exact asks_throw id

theorem asks_read (hv : v.IsLawful) (schema : Path) :
    (read schema : Run (StateM σ) String).Asks := by
  refine (asks_liftM (hv.readText_state schema)).bind fun outcome => ?_
  cases outcome with
  | ok source => exact asks_pure source
  | error e => exact asks_throw id

end

theorem not_isOfWriting_of_declaredTables {s : Settings} {source : String} {e : RunError}
    (h : declaredTables s source = .error e) : ¬ e.IsOfWriting := by
  unfold declaredTables at h
  split at h
  · cases h
    exact id
  · split at h
    · cases h
    · split at h
      · cases h
        exact id
      · cases h

theorem not_isOfWriting_of_documentTables {s : Settings} {source : String} {e : RunError}
    (h : documentTables s source = .error e) : ¬ e.IsOfWriting := by
  unfold documentTables at h
  split at h
  · cases h
    exact id
  · split at h
    · cases h
      exact id
    · split at h
      · split at h
        · cases h
          exact id
        · cases h
      · cases h

theorem not_isOfWriting_of_tablesOf {s : Settings} {source : String} {d : Dialect} {e : RunError}
    (h : tablesOf s source d = .error e) : ¬ e.IsOfWriting := by
  cases d with
  | drizzle =>
    cases hdeclared : declaredTables s source with
    | error e' =>
      rw [tablesOf, hdeclared] at h
      cases h
      exact not_isOfWriting_of_declaredTables hdeclared
    | ok declared =>
      rw [tablesOf, hdeclared] at h
      cases h
  | prisma =>
    cases hdocument : documentTables s source with
    | error e' =>
      rw [tablesOf, hdocument] at h
      cases h
      exact not_isOfWriting_of_documentTables hdocument
    | ok tables =>
      rw [tablesOf, hdocument] at h
      cases h

theorem not_isOfWriting_of_planReport {s : Settings} {layout : Layout} {schema : Path}
    {tables : List Table} {skipped : List Declaration.Unread} {e : RunError}
    (h : planReport s layout schema tables skipped = .error e) : ¬ e.IsOfWriting := by
  unfold planReport at h
  split at h
  · cases h
  · split at h
    · cases h
    · cases h
      exact id

theorem not_isOfWriting_of_reportOf {d : Dialect} {root : Path} {s : Settings}
    {request : GenerateRequest} {schema : Path} {source : String} {e : RunError}
    (h : reportOf d root s request schema source = .error e) : ¬ e.IsOfWriting := by
  cases htables : tablesOf s source d with
  | error e' =>
    rw [reportOf, htables] at h
    cases h
    exact not_isOfWriting_of_tablesOf htables
  | ok tables =>
    rw [reportOf, htables] at h
    exact not_isOfWriting_of_planReport h

/-- **What is decided before writing leaves the file system as it is.** -/
theorem asks_prepare {σ : Type} [FileSystem (StateM σ)] {v : FileSystem.View σ} (hv : v.IsLawful)
    (d : Dialect) (root : Path) (s : Settings) (request : GenerateRequest) :
    (prepare d root s request : Run (StateM σ) GenerateReport).Asks := by
  refine (asks_locate hv root request.schema _).bind fun schema => ?_
  refine (asks_read hv schema).bind fun source => ?_
  exact asks_ofExcept fun e he => not_isOfWriting_of_reportOf he

/-! ### Planned files -/

/-- The files of a report are the plan for its tables, also when there are none. -/
theorem planReport_eq_ok {s : Settings} {layout : Layout} {schema : Path} {tables : List Table}
    {skipped : List Declaration.Unread} {report : GenerateReport}
    (h : planReport s layout schema tables skipped = .ok report) :
    report.schema = schema ∧ report.tableCount = tables.length ∧
      plan (s.emitOptions layout) tables = .ok report.files := by
  unfold planReport at h
  split at h
  · next hempty =>
    rw [List.isEmpty_iff] at hempty
    cases h
    subst hempty
    exact ⟨rfl, rfl, rfl⟩
  · split at h
    · next files hplan =>
      cases h
      exact ⟨rfl, rfl, hplan⟩
    · cases h

theorem reportOf_eq_ok {d : Dialect} {root : Path} {s : Settings} {request : GenerateRequest}
    {schema : Path} {source : String} {report : GenerateReport}
    (h : reportOf d root s request schema source = .ok report) :
    report.schema = schema ∧ ∃ (o : EmitOptions) (tables : List Table),
      report.tableCount = tables.length ∧ plan o tables = .ok report.files := by
  cases htables : tablesOf s source d with
  | error e =>
    rw [reportOf, htables] at h
    cases h
  | ok tables =>
    rw [reportOf, htables] at h
    obtain ⟨hschema, hcount, hplan⟩ := planReport_eq_ok h
    exact ⟨hschema, _, _, hcount, hplan⟩

variable {σ : Type} [FileSystem (StateM σ)] {v : FileSystem.View σ} {d : Dialect} {root : Path}
  {s : Settings} {request : GenerateRequest} {fs fs' : σ} {report : GenerateReport}

theorem on_writeReport_eq_ok {written : GenerateReport} :
    (writeReport report).on fs = (.ok written, fs') ↔
      written = report ∧ (writeFiles report.files).on fs = (.ok (), fs') := by
  rw [writeReport, on_bind_eq_ok]
  constructor
  · rintro ⟨⟨⟩, fs₁, hwrite, hreport⟩
    cases hreport
    exact ⟨rfl, hwrite⟩
  · rintro ⟨rfl, hwrite⟩
    exact ⟨(), fs', hwrite, rfl⟩

theorem on_writeReport_eq_error {e : RunError} :
    (writeReport report).on fs = (.error e, fs') ↔
      (writeFiles report.files).on fs = (.error e, fs') := by
  rw [writeReport, on_bind_eq_error]
  constructor
  · rintro (hwrite | ⟨⟨⟩, fs₁, -, hreport⟩)
    · exact hwrite
    · cases hreport
  · exact .inl

/-- A run that gets to writing has found a schema and read it. -/
theorem on_prepare_eq_ok (hv : v.IsLawful) :
    (prepare d root s request).on fs = (.ok report, fs') ↔ fs' = fs ∧ ∃ schema source,
      (locate root request.schema (sourceSettings s d).candidates).on fs = (.ok schema, fs) ∧
      (read schema).on fs = (.ok source, fs) ∧
      reportOf d root s request schema source = .ok report := by
  constructor
  · intro h
    obtain rfl := (asks_prepare hv d root s request).state h
    obtain ⟨schema, fs₁, hlocate, h⟩ := on_bind_eq_ok.1 h
    obtain rfl := (asks_locate hv _ _ _).state hlocate
    obtain ⟨source, fs₂, hread, h⟩ := on_bind_eq_ok.1 h
    obtain rfl := (asks_read hv _).state hread
    exact ⟨rfl, schema, source, hlocate, hread, (Prod.mk.inj h).1⟩
  · rintro ⟨rfl, schema, source, hlocate, hread, hreport⟩
    refine on_bind_eq_ok.2 ⟨schema, fs', hlocate, on_bind_eq_ok.2 ⟨source, fs', hread, ?_⟩⟩
    rw [on_ofExcept, hreport]

/-- The planned files of a run have different names, in whatever directories. -/
theorem pairwise_namedApart_of_on_prepare (hv : v.IsLawful)
    (h : (prepare d root s request).on fs = (.ok report, fs')) :
    report.files.Pairwise fun f g => f.path.NamedApart g.path := by
  obtain ⟨-, schema, source, -, -, hreport⟩ := (on_prepare_eq_ok hv).1 h
  obtain ⟨-, o, tables, -, hplan⟩ := reportOf_eq_ok hreport
  exact pairwise_namedApart_of_plan_eq_ok hplan

end Run

end SchemaForge
