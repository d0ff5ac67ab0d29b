import SchemaForge.Proofs.FileSystem
import SchemaForge.Proofs.Run.Outcome

/-!
# Writing files

Files are written one after another, each into its directory, which is made first.  A step changes
the place of its file and makes directories above it, so a row of steps changes the places of its
files and makes directories above them.  Files whose paths end in different names stay as they are
written.

## Main definitions

* `FileSystem.View.placesOf`, `FileSystem.View.placesAbove` — where files are, and the directories
  above them.
* `FileSystem.View.Holds` — files are where their paths lead.
* `Run.ParentMade` — the directory of a file is made.

## Main results

* `Run.on_writeFile_eq_ok`, `Run.on_writeFile_eq_error` — what a step comes to.
* `Run.frame_writeFiles` — **all files are there after a row of steps, and nothing else changes.**
* `Run.on_writeFiles_eq_error` — a row of steps stops at a file when all before are written.
-/

namespace SchemaForge

open FileSystem.View

variable {σ : Type}

namespace FileSystem.View

section

variable (v : View σ) (fs : σ) (files : List GeneratedFile)

/-- The places of files. -/
def placesOf : Set v.Place :=
  {l | ∃ f ∈ files, l = v.place fs f.path}

/-- The places of the directories above files. -/
def placesAbove : Set v.Place :=
  {l | ∃ f ∈ files, ∃ p : Path, p.Above f.path ∧ l = v.place fs p}

/-- Files are where their paths lead, with their texts. -/
def Holds : Prop :=
  ∀ f ∈ files, v.node? fs (v.place fs f.path) = some (.text f.content)

end

variable {v : View σ} {fs fs' : σ} {files files' : List GeneratedFile} {f : GeneratedFile}

theorem placesOf_mono (fs : σ) (h : files ⊆ files') :
    v.placesOf fs files ⊆ v.placesOf fs files' := by
  rintro l ⟨f, hf, rfl⟩
  exact ⟨f, h hf, rfl⟩

theorem placesAbove_mono (fs : σ) (h : files ⊆ files') :
    v.placesAbove fs files ⊆ v.placesAbove fs files' := by
  rintro l ⟨f, hf, p, hp, rfl⟩
  exact ⟨f, h hf, p, hp, rfl⟩

theorem Frame.placesOf_eq {written made : Set v.Place} (h : v.Frame written made fs fs')
    (files : List GeneratedFile) : v.placesOf fs' files = v.placesOf fs files := by
  rw [placesOf, placesOf, h.place_eq]

theorem Frame.placesAbove_eq {written made : Set v.Place} (h : v.Frame written made fs fs')
    (files : List GeneratedFile) : v.placesAbove fs' files = v.placesAbove fs files := by
  rw [placesAbove, placesAbove, h.place_eq]

/-- A file whose path ends in a name of its own is no other's. -/
theorem IsLawful.place_not_mem_placesOf [FileSystem (StateM σ)] (hv : v.IsLawful) (fs : σ)
    (h : ∀ g ∈ files, f.path.NamedApart g.path) : v.place fs f.path ∉ v.placesOf fs files := by
  rintro ⟨g, hg, heq⟩
  exact hv.place_ne fs (h g hg) heq

/-- Files stay in place where nothing is written over them. -/
theorem Holds.frame {written made : Set v.Place} (h : v.Holds fs files)
    (hframe : v.Frame written made fs fs') (hapart : ∀ f ∈ files, v.place fs f.path ∉ written) :
    v.Holds fs' files := by
  intro f hf
  rw [hframe.place_eq]
  exact hframe.node?_eq_some (h f hf) (hapart f hf)

end FileSystem.View

namespace Run

variable [FileSystem (StateM σ)] {v : FileSystem.View σ} {f : GeneratedFile}
  {files : List GeneratedFile} {fs fs₁ fs' : σ} {e : RunError}

/-! ### One step -/

/-- The directory that a path lies in is made, if it lies in one. -/
def ParentMade (p : Path) (fs fs' : σ) : Prop :=
  match p.parent? with
  | some parent =>
    (FileSystem.createDirectories parent : StateM σ _).run fs = (.ok (), fs')
  | none => fs' = fs

theorem on_writeFile_of_parentMade (h : ParentMade f.path fs fs₁) :
    (writeFile f).on fs =
      (orStop (.file f.path) (FileSystem.writeText f.path f.content) : Run (StateM σ) Unit).on
        fs₁ := by
  unfold ParentMade at h
  unfold writeFile
  cases hparent : f.path.parent? with
  | none =>
    rw [hparent] at h
    subst h
    rfl
  | some parent =>
    rw [hparent] at h
    exact on_bind_of_ok (on_orStop h)

theorem on_writeFile_of_error {parent : Path} {refusal : OsError}
    (hparent : f.path.parent? = some parent)
    (h : (FileSystem.createDirectories parent : StateM σ _).run fs = (.error refusal, fs')) :
    (writeFile f).on fs = (.error (.directory parent refusal), fs') := by
  unfold writeFile
  rw [hparent]
  exact on_bind_of_error (on_orStop h)

/-- The directory of a file is made, or the step stops there. -/
theorem parentMade_or_error (f : GeneratedFile) (fs : σ) :
    (∃ fs₁, ParentMade f.path fs fs₁) ∨
      ∃ parent refusal fs', f.path.parent? = some parent ∧
        (FileSystem.createDirectories parent : StateM σ _).run fs = (.error refusal, fs') := by
  unfold ParentMade
  cases hparent : f.path.parent? with
  | none => exact .inl ⟨fs, rfl⟩
  | some parent =>
    rcases hcreate : (FileSystem.createDirectories parent : StateM σ _).run fs with
      ⟨refusal | ⟨⟩, fs₁⟩
    · exact .inr ⟨parent, refusal, fs₁, rfl, hcreate⟩
    · exact .inl ⟨fs₁, hcreate⟩

/-- A step succeeds when the directory is made and the file written. -/
theorem on_writeFile_eq_ok :
    (writeFile f).on fs = (.ok (), fs') ↔ ∃ fs₁, ParentMade f.path fs fs₁ ∧
      (FileSystem.writeText f.path f.content : StateM σ _).run fs₁ = (.ok (), fs') := by
  constructor
  · intro h
    rcases parentMade_or_error f fs with ⟨fs₁, hmade⟩ | ⟨parent, refusal, fs₁, hparent, hcreate⟩
    · rw [on_writeFile_of_parentMade hmade] at h
      rcases hwrite : (FileSystem.writeText f.path f.content : StateM σ _).run fs₁ with
        ⟨refusal | ⟨⟩, fs₂⟩
      · rw [on_orStop hwrite] at h
        cases h
      · rw [on_orStop hwrite] at h
        cases h
        exact ⟨fs₁, hmade, hwrite⟩
    · rw [on_writeFile_of_error hparent hcreate] at h
      cases h
  · rintro ⟨fs₁, hmade, hwrite⟩
    rw [on_writeFile_of_parentMade hmade, on_orStop hwrite]
    rfl

/-- A step stops when the directory cannot be made or the file cannot be written. -/
theorem on_writeFile_eq_error (h : (writeFile f).on fs = (.error e, fs')) :
    (∃ parent refusal, f.path.parent? = some parent ∧ e = .directory parent refusal ∧
      (FileSystem.createDirectories parent : StateM σ _).run fs = (.error refusal, fs')) ∨
    ∃ refusal fs₁, e = .file f.path refusal ∧ ParentMade f.path fs fs₁ ∧
      (FileSystem.writeText f.path f.content : StateM σ _).run fs₁ = (.error refusal, fs') := by
  rcases parentMade_or_error f fs with ⟨fs₁, hmade⟩ | ⟨parent, refusal, fs₁, hparent, hcreate⟩
  · rw [on_writeFile_of_parentMade hmade] at h
    rcases hwrite : (FileSystem.writeText f.path f.content : StateM σ _).run fs₁ with
      ⟨refusal | ⟨⟩, fs₂⟩
    · rw [on_orStop hwrite] at h
      cases h
      exact .inr ⟨refusal, fs₁, rfl, hmade, hwrite⟩
    · rw [on_orStop hwrite] at h
      cases h
  · rw [on_writeFile_of_error hparent hcreate] at h
    cases h
    exact .inl ⟨parent, refusal, hparent, rfl, hcreate⟩

theorem frame_of_createDirectories (hv : v.IsLawful) {parent : Path}
    {outcome : Except OsError Unit} (hparent : f.path.parent? = some parent)
    (h : (FileSystem.createDirectories parent : StateM σ _).run fs = (outcome, fs')) :
    v.Frame ∅ (v.placesAbove fs [f]) fs fs' := by
  have hparentPlace : v.place fs parent ∈ v.placesAbove fs [f] :=
    ⟨f, List.mem_singleton_self f, parent, .parent hparent, rfl⟩
  have hframe := hv.frame_createDirectories parent fs hparentPlace fun q hq =>
    ⟨f, List.mem_singleton_self f, q, .above hparent hq, rfl⟩
  rwa [h] at hframe

theorem ParentMade.frame (hv : v.IsLawful) (h : ParentMade f.path fs fs₁) :
    v.Frame ∅ (v.placesAbove fs [f]) fs fs₁ := by
  unfold ParentMade at h
  cases hparent : f.path.parent? with
  | none =>
    rw [hparent] at h
    subst h
    exact .refl _
  | some parent =>
    rw [hparent] at h
    exact frame_of_createDirectories hv hparent h

theorem ParentMade.frame_writeText (hv : v.IsLawful) (h : ParentMade f.path fs fs₁)
    {outcome : Except OsError Unit}
    (hwrite : (FileSystem.writeText f.path f.content : StateM σ _).run fs₁ = (outcome, fs')) :
    v.Frame (v.placesOf fs [f]) (v.placesAbove fs [f]) fs fs' := by
  have hmade := h.frame hv
  have hframe : v.Frame {v.place fs₁ f.path} (v.placesAbove fs [f]) fs₁ _ :=
    hv.frame_writeText f.path f.content fs₁
  rw [hwrite, hmade.place_eq] at hframe
  refine (hmade.mono (Set.empty_subset _) subset_rfl).trans (hframe.mono ?_ subset_rfl)
  rintro l rfl
  exact ⟨f, List.mem_singleton_self f, rfl⟩

/-- **A step leaves its file in place, and changes nothing else** but for directories above it. -/
theorem frame_writeFile (hv : v.IsLawful) (h : (writeFile f).on fs = (.ok (), fs')) :
    v.Frame (v.placesOf fs [f]) (v.placesAbove fs [f]) fs fs' ∧ v.Holds fs' [f] := by
  obtain ⟨fs₁, hmade, hwrite⟩ := on_writeFile_eq_ok.1 h
  have hframe := hmade.frame_writeText hv hwrite
  refine ⟨hframe, ?_⟩
  intro g hg
  rw [List.mem_singleton] at hg
  subst hg
  rw [hframe.place_eq, ← (hmade.frame hv).place_eq]
  exact hv.node?_writeText hwrite

/-- A step that stops may have changed its file if that could not be written, and nothing else but
for directories above it. -/
theorem frame_writeFile_error (hv : v.IsLawful) (h : (writeFile f).on fs = (.error e, fs')) :
    v.Frame {l | l = v.place fs f.path ∧ ∃ refusal, e = .file f.path refusal}
      (v.placesAbove fs [f]) fs fs' := by
  rcases on_writeFile_eq_error h with ⟨parent, refusal, hparent, -, hcreate⟩ |
    ⟨refusal, fs₁, rfl, hmade, hwrite⟩
  · exact (frame_of_createDirectories hv hparent hcreate).mono (Set.empty_subset _) subset_rfl
  · refine (hmade.frame_writeText hv hwrite).mono ?_ subset_rfl
    rintro l ⟨g, hg, rfl⟩
    rw [List.mem_singleton] at hg
    subst hg
    exact ⟨rfl, refusal, rfl⟩

/-! ### A row of steps -/

theorem on_writeFiles_cons_eq_ok {rest : List GeneratedFile} :
    (writeFiles (f :: rest)).on fs = (.ok (), fs') ↔
      ∃ fs₁, (writeFile f).on fs = (.ok (), fs₁) ∧ (writeFiles rest).on fs₁ = (.ok (), fs') := by
  rw [writeFiles, on_bind_eq_ok]
  constructor
  · rintro ⟨⟨⟩, fs₁, hfirst, hrest⟩
    exact ⟨fs₁, hfirst, hrest⟩
  · rintro ⟨fs₁, hfirst, hrest⟩
    exact ⟨(), fs₁, hfirst, hrest⟩

/-- **A row of steps leaves all its files in place, and changes nothing else** but for directories
above them.  What holds the row together is that no step writes over the file of another. -/
theorem frame_writeFiles (hv : v.IsLawful)
    (hapart : files.Pairwise fun f g => f.path.NamedApart g.path)
    (h : (writeFiles files).on fs = (.ok (), fs')) :
    v.Frame (v.placesOf fs files) (v.placesAbove fs files) fs fs' ∧ v.Holds fs' files := by
  induction files generalizing fs with
  | nil =>
    cases h
    exact ⟨.refl _, fun f hf => absurd hf List.not_mem_nil⟩
  | cons f rest ih =>
    obtain ⟨hf, hrest⟩ := List.pairwise_cons.1 hapart
    obtain ⟨fs₁, hfirst, hnext⟩ := on_writeFiles_cons_eq_ok.1 h
    obtain ⟨hframe, hholds⟩ := frame_writeFile hv hfirst
    obtain ⟨hframe', hholds'⟩ := ih hrest hnext
    have hholds'' : v.Holds fs' [f] := by
      refine hholds.frame hframe' fun g hg => ?_
      rw [List.mem_singleton] at hg
      subst hg
      exact hv.place_not_mem_placesOf fs₁ hf
    rw [hframe.placesOf_eq, hframe.placesAbove_eq] at hframe'
    have hsub : [f] ⊆ f :: rest := by simp
    have hsub' : rest ⊆ f :: rest := List.subset_cons_self f rest
    refine ⟨?_, List.forall_mem_cons.2 ⟨hholds'' f (List.mem_singleton_self f), hholds'⟩⟩
    exact (hframe.mono (placesOf_mono fs hsub) (placesAbove_mono fs hsub)).trans
      (hframe'.mono (placesOf_mono fs hsub') (placesAbove_mono fs hsub'))

/-- **A row of steps stops at a file when all before are written.** -/
theorem on_writeFiles_eq_error (h : (writeFiles files).on fs = (.error e, fs')) :
    ∃ done f later fs₁, files = done ++ f :: later ∧ (writeFiles done).on fs = (.ok (), fs₁) ∧
      (writeFile f).on fs₁ = (.error e, fs') := by
  induction files generalizing fs with
  | nil => cases h
  | cons f rest ih =>
    rcases on_bind_eq_error.1 h with hfirst | ⟨⟨⟩, fs₁, hfirst, hrest⟩
    · exact ⟨[], f, rest, fs, rfl, rfl, hfirst⟩
    · obtain ⟨done, g, later, fs₂, rfl, hdone, hstop⟩ := ih hrest
      exact ⟨f :: done, g, later, fs₂, rfl, on_writeFiles_cons_eq_ok.2 ⟨fs₁, hfirst, hdone⟩, hstop⟩

end Run

end SchemaForge
