import SchemaForge.Proofs.FileTree.Lawful
import SchemaForge.Proofs.Run.Preparation
import SchemaForge.Proofs.Run.Writing

/-!
# Runs that fail

A run that stops before it writes has changed nothing.  One that stops while it writes has written
the files before the one it stopped at, and nothing else.

## Main definitions

* `FileSystem.View.StoppedAt` — what a run leaves that stopped at one of its files.

## Main results

* `Run.failed_run_writes_nothing_else` — **a failed run changes nothing, or has written the first
  of its files.**
-/

namespace SchemaForge

/-- A run has stopped at a file: the files before it are written, and the later ones are not. -/
structure FileSystem.View.StoppedAt {σ : Type} (v : View σ) (fs fs' : σ) (e : RunError)
    (done : List GeneratedFile) (f : GeneratedFile) (later : List GeneratedFile) : Prop where
  /-- The cause names the file or the directory it lies in. -/
  cause : (∃ refusal, e = .file f.path refusal) ∨
    ∃ parent refusal, f.path.parent? = some parent ∧ e = .directory parent refusal
  /-- The files before are written. -/
  holds : v.Holds fs' done
  /-- The later files are as they were, or are in the way of a directory that is made. -/
  later : ∀ g ∈ later, v.node? fs' (v.place fs g.path) = v.node? fs (v.place fs g.path) ∨
    v.place fs g.path ∈ v.placesAbove fs (done ++ [f]) ∧ v.node? fs (v.place fs g.path) = none ∧
      v.node? fs' (v.place fs g.path) = some .directory
  /-- Nothing else is changed, but for the file itself when it could not be written, and
  directories that are made above it and the files before. -/
  frame : v.Frame
    (v.placesOf fs done ∪ {l | l = v.place fs f.path ∧ ∃ refusal, e = .file f.path refusal})
    (v.placesAbove fs (done ++ [f])) fs fs'

namespace Run

variable {σ : Type} [FileSystem (StateM σ)] {v : FileSystem.View σ}

open FileSystem.View

/-- A row of steps that stops has written the files before. -/
theorem stoppedAt_of_writeFiles (hv : v.IsLawful) {files : List GeneratedFile} {fs fs' : σ}
    {e : RunError} (hapart : files.Pairwise fun f g => f.path.NamedApart g.path)
    (h : (writeFiles files).on fs = (.error e, fs')) :
    ∃ done f later, files = done ++ f :: later ∧ v.StoppedAt fs fs' e done f later := by
  obtain ⟨done, f, later, fs₁, rfl, hdone, hstop⟩ := on_writeFiles_eq_error h
  obtain ⟨hdoneApart, hrest, hacross⟩ := List.pairwise_append.1 hapart
  obtain ⟨hf, -⟩ := List.pairwise_cons.1 hrest
  obtain ⟨hframe, hholds⟩ := frame_writeFiles hv hdoneApart hdone
  have hplace := congrFun hframe.place_eq
  have hlast := frame_writeFile_error hv hstop
  have hwhole : v.Frame
      (v.placesOf fs done ∪ {l | l = v.place fs f.path ∧ ∃ refusal, e = .file f.path refusal})
      (v.placesAbove fs (done ++ [f])) fs fs' := by
    rw [hframe.placesAbove_eq, hplace] at hlast
    refine (hframe.mono Set.subset_union_left ?_).trans (hlast.mono Set.subset_union_right ?_)
    · exact placesAbove_mono fs (List.subset_append_left done [f])
    · exact placesAbove_mono fs (List.subset_append_right done [f])
  refine ⟨done, f, later, rfl, ?_⟩
  constructor
  case cause =>
    rcases on_writeFile_eq_error hstop with ⟨parent, refusal, hparent, he, -⟩ |
      ⟨refusal, fs₂, he, -, -⟩
    · exact .inr ⟨parent, refusal, hparent, he⟩
    · exact .inl ⟨refusal, he⟩
  case holds =>
    refine hholds.frame hlast fun g hg hplaceOf => ?_
    exact hv.place_ne fs₁ (hacross g hg f List.mem_cons_self) hplaceOf.1
  case later =>
    intro g hg
    rcases hwhole.node?_eq (v.place fs g.path) with heq | (⟨g', hg', heq⟩ | ⟨heq, -⟩) | hmade
    · exact .inl heq
    · exact absurd heq.symm (hv.place_ne fs (hacross g' hg' g (List.mem_cons_of_mem f hg)))
    · exact absurd heq.symm (hv.place_ne fs (hf g hg))
    · exact .inr hmade
  case frame => exact hwhole

/-- **A failed run changes nothing, or has written the first of its files.**  Unless a directory or
a file cannot be made, the file system is as it was.  Otherwise the run had planned its files, and
stopped at one of them. -/
theorem failed_run_writes_nothing_else (hv : v.IsLawful) (d : Dialect) (root : Path) (s : Settings)
    (request : GenerateRequest) {fs fs' : σ} {e : RunError}
    (h : (generate d root s request).on fs = (.error e, fs')) :
    (¬ e.IsOfWriting → fs' = fs) ∧
    (e.IsOfWriting → ∃ report, (prepare d root s request).on fs = (.ok report, fs) ∧
      ∃ done f later, report.files = done ++ f :: later ∧
        v.StoppedAt fs fs' e done f later) := by
  rw [generate_eq] at h
  rcases on_bind_eq_error.1 h with hprepare | ⟨report, fs₁, hprepare, hwrite⟩
  · refine ⟨fun _ => (asks_prepare hv d root s request).state hprepare, fun he => ?_⟩
    exact absurd he ((asks_prepare hv d root s request).error hprepare)
  · obtain rfl := (asks_prepare hv d root s request).state hprepare
    have hapart := pairwise_namedApart_of_on_prepare hv hprepare
    obtain ⟨done, f, later, hfiles, hstopped⟩ :=
      stoppedAt_of_writeFiles hv hapart (on_writeReport_eq_error.1 hwrite)
    refine ⟨fun he => absurd ?_ he, fun _ => ⟨report, hprepare, done, f, later, hfiles, hstopped⟩⟩
    rcases hstopped.cause with ⟨refusal, rfl⟩ | ⟨parent, refusal, -, rfl⟩
    · trivial
    · trivial

/-- A project where a file stands in place of the directory for types. -/
def blockedProject : FileTree where
  entries :=
    [(["app"], .directory),
      (["app", "schema.ts"],
        .text "export const user = pgTable(\"user\", (t) => (\x7b id: t.text(), \x7d))"),
      (["app", "out"], .directory),
      (["app", "out", "types"], .text "notes")]
  current := ["app"]

/-- A run into that directory. -/
def blockedRequest : GenerateRequest where
  schema := some ⟨"schema.ts"⟩
  output := some ⟨"out"⟩

theorem failed_run_writes_nothing_else_sample :
    (∃ e fs' done f later,
      (generate .drizzle ⟨""⟩ {} blockedRequest).on blockedProject = (.error e, fs') ∧
        FileTree.view.StoppedAt blockedProject fs' e done f later) ∧
    ∃ e, (generate .prisma ⟨""⟩ {} { schema := some ⟨"absent"⟩ }).on blockedProject =
      (.error e, blockedProject) := by
  have hlawful := FileTree.isLawful_view
  constructor
  · have hcause : ((generate .drizzle ⟨""⟩ {} blockedRequest).on blockedProject).1 =
        .error (.directory ⟨"out/types"⟩ .alreadyExists) := by
      decide +kernel
    rcases hrun : (generate .drizzle ⟨""⟩ {} blockedRequest).on blockedProject with ⟨outcome, fs'⟩
    rw [hrun] at hcause
    obtain rfl : outcome = .error (.directory ⟨"out/types"⟩ .alreadyExists) := hcause
    obtain ⟨report, -, done, f, later, -, hstopped⟩ :=
      (failed_run_writes_nothing_else hlawful .drizzle ⟨""⟩ {} blockedRequest hrun).2 trivial
    exact ⟨_, fs', done, f, later, rfl, hstopped⟩
  · have hcause : ((generate .prisma ⟨""⟩ {} { schema := some ⟨"absent"⟩ }).on blockedProject).1 =
        .error (.schemaMissing ⟨"absent"⟩) := by
      decide +kernel
    rcases hrun : (generate .prisma ⟨""⟩ {} { schema := some ⟨"absent"⟩ }).on blockedProject with
      ⟨outcome, fs'⟩
    rw [hrun] at hcause
    obtain rfl : outcome = .error (.schemaMissing ⟨"absent"⟩) := hcause
    obtain rfl := (failed_run_writes_nothing_else hlawful .prisma ⟨""⟩ {} _ hrun).1 id
    exact ⟨_, rfl⟩

end Run

end SchemaForge
