import SchemaForge.Proofs.FileTree.Rooted
import SchemaForge.Proofs.Outcome
import SchemaForge.Skeleton.NewProject

/-!
# Creating a project

A project is created call by call: its directory is made, then each file is written into its own
directory, which is made first.  What every call keeps, the project keeps, whether or not it is
created to the end; and each file stays as it is written, since no other goes to its place.

## Main definitions

* `skeletonPlaces` — where the files of a project and their directories are.
* `NewProject.filePlaces`, `NewProject.directoryPlaces` — what may be written, and what may be made.
* `NewProject.IsKept` — what the calls for files keep.

## Main results

* `NewProject.create_invariant` — what the calls keep, creating a project keeps.
* `NewProject.frame_create` — **only places of the project change, and missing directories above.**
* `NewProject.read_of_create` — **a created project has all its files.**
-/

namespace SchemaForge.Skeleton

open FileSystem (createDirectories writeText)

/-! ### Places -/

/-- The places of a project in a directory: the directory, the files, and what is above them in the
directory. -/
def skeletonPlaces (here : Location) : List Location :=
  skeletonFiles.flatMap fun f => f.path.components.inits.map (List.foldl Component.enter here)

section

variable {here l : Location} {f g : SkeletonFile}

theorem mem_skeletonPlaces :
    l ∈ skeletonPlaces here ↔
      ∃ f ∈ skeletonFiles, ∃ cs, cs <+: f.path.components ∧ l = cs.foldl Component.enter here := by
  simp only [skeletonPlaces, List.mem_flatMap, List.mem_map, List.mem_inits, eq_comm]

theorem foldl_enter_names (here : Location) (names : List String) :
    (names.map Component.name).foldl Component.enter here = here ++ names := by
  induction names generalizing here with
  | nil => simp
  | cons n names ih =>
    rw [List.map_cons, List.foldl_cons, ih, Component.enter, List.append_assoc,
      List.singleton_append]

/-- The path of a file of a project is a row of names, and goes below any path. -/
theorem exists_names_of_mem_skeletonFiles (hf : f ∈ skeletonFiles) :
    f.path.IsBelow ∧ ∃ names, names ≠ [] ∧ f.path.components = names.map Component.name := by
  have hall : ∀ f ∈ skeletonFiles, f.path.IsBelow ∧ f.path.components ≠ [] ∧
      ∀ c ∈ f.path.components, c = .name (Path.componentText c) := by
    decide +kernel
  obtain ⟨hbelow, hne, hnames⟩ := hall f hf
  refine ⟨hbelow, f.path.components.map Path.componentText, by simpa using hne, ?_⟩
  rw [List.map_map]
  exact (List.map_id _).symm.trans (List.map_congr_left hnames)

/-- The places of a project are in its directory. -/
theorem isPrefix_of_mem_skeletonPlaces (h : l ∈ skeletonPlaces here) : here <+: l := by
  obtain ⟨f, hf, cs, hcs, rfl⟩ := mem_skeletonPlaces.1 h
  obtain ⟨-, names, -, hnames⟩ := exists_names_of_mem_skeletonFiles hf
  rw [hnames, List.prefix_map_iff] at hcs
  obtain ⟨front, -, rfl⟩ := hcs
  rw [foldl_enter_names]
  exact List.prefix_append here front

/-- The files of a project go to different places. -/
theorem pairwise_components_skeletonFiles :
    skeletonFiles.Pairwise fun f g => f.path.components ≠ g.path.components := by
  decide +kernel

end

namespace NewProject

variable {p : NewProject} {f g : SkeletonFile} {files : List SkeletonFile}

/-- Where a file of a project goes. -/
def pathOf (p : NewProject) (f : SkeletonFile) : Path :=
  p.target.join f.path

theorem components_pathOf (p : NewProject) (hf : f ∈ skeletonFiles) :
    (p.pathOf f).components = p.target.components ++ f.path.components :=
  Path.components_join p.target (exists_names_of_mem_skeletonFiles hf).1

section

variable (p : NewProject) (t : FileTree)

/-- The places of files of a project. -/
def filePlaces (files : List SkeletonFile) : Set Location :=
  {l | ∃ f ∈ files, l = t.target (p.pathOf f)}

/-- The places on the way to the directory of a project, itself included. -/
def placesAbove : Set Location :=
  {l | ∃ front below, .root ∉ below ∧ p.target.components = front ++ below ∧
    l = front.foldl Component.enter t.current}

/-- The places where directories of a project may be missing. -/
def directoryPlaces : Set Location :=
  {l | l ∈ p.placesAbove t ∨ l ∈ skeletonPlaces (t.target p.target)}

variable {p t}

theorem target_pathOf (p : NewProject) (t : FileTree) (hf : f ∈ skeletonFiles) :
    t.target (p.pathOf f) = f.path.components.foldl Component.enter (t.target p.target) := by
  rw [FileTree.target, components_pathOf p hf, List.foldl_append, FileTree.target]

theorem filePlaces_subset (hfiles : files ⊆ skeletonFiles) :
    ∀ l ∈ p.filePlaces t files, l ∈ skeletonPlaces (t.target p.target) := by
  rintro l ⟨f, hf, rfl⟩
  exact mem_skeletonPlaces.2
    ⟨f, hfiles hf, _, List.prefix_rfl, p.target_pathOf t (hfiles hf)⟩

/-- A file of a project is at the place of no other. -/
theorem target_pathOf_ne (hf : f ∈ skeletonFiles) (hg : g ∈ skeletonFiles)
    (hne : f.path.components ≠ g.path.components) :
    t.target (p.pathOf f) ≠ t.target (p.pathOf g) := by
  obtain ⟨-, names, -, hnames⟩ := exists_names_of_mem_skeletonFiles hf
  obtain ⟨-, names', -, hnames'⟩ := exists_names_of_mem_skeletonFiles hg
  rw [p.target_pathOf t hf, p.target_pathOf t hg, hnames, hnames', foldl_enter_names,
    foldl_enter_names]
  intro heq
  rw [hnames, hnames', List.append_cancel_left heq] at hne
  exact hne rfl

/-- The directory of a project and what is above it are on the way there. -/
theorem target_mem_directoryPlaces {q : Path} (hq : q = p.target ∨ q.Above p.target) :
    t.target q ∈ p.directoryPlaces t := by
  left
  rcases hq with rfl | hq
  · exact ⟨p.target.components, [], List.not_mem_nil, (List.append_nil _).symm, rfl⟩
  · obtain ⟨below, -, hroot, hbelow⟩ := hq.exists_components_eq
    exact ⟨q.components, below, hroot, hbelow, rfl⟩

/-- What is above a file of a project is in the directory of the project, or on the way there. -/
theorem target_mem_directoryPlaces_of_above (hf : f ∈ skeletonFiles) {q : Path}
    (hq : q.Above (p.pathOf f)) : t.target q ∈ p.directoryPlaces t := by
  obtain ⟨below, -, hroot, hbelow⟩ := hq.exists_components_eq
  rw [components_pathOf p hf] at hbelow
  rcases List.append_eq_append_iff.1 hbelow with ⟨inside, hq, hpath⟩ | ⟨above, htarget, hrest⟩
  · right
    refine mem_skeletonPlaces.2 ⟨f, hf, inside, ⟨below, hpath.symm⟩, ?_⟩
    rw [FileTree.target, hq, List.foldl_append, FileTree.target]
  · left
    refine ⟨q.components, above, fun habove => hroot ?_, htarget, rfl⟩
    rw [hrest]
    exact List.mem_append_left _ habove

end

/-! ### Steps -/

section

variable {σ : Type} {s s' : σ}

theorem outcome_orStop {cause : OsError → CreateError} {call : StateM σ (Except OsError Unit)}
    {result : Except OsError Unit} (h : call.run s = (result, s')) :
    outcome (orStop cause call) s = (result.mapError cause, s') := by
  rw [orStop, outcome_bind_of_ok (outcome_liftM h)]
  cases result with
  | error e => rfl
  | ok a => rfl

/-- A call that must succeed has succeeded when the program goes on. -/
theorem outcome_orStop_eq_ok {cause : OsError → CreateError} {call : StateM σ (Except OsError Unit)}
    (h : outcome (orStop cause call) s = (.ok (), s')) : call.run s = (.ok (), s') := by
  rcases hcall : call.run s with ⟨refusal | ⟨⟩, s''⟩
  · rw [outcome_orStop hcall] at h
    cases h
  · rw [outcome_orStop hcall] at h
    cases h
    rfl

theorem outcome_orStop_snd (cause : OsError → CreateError) (call : StateM σ (Except OsError Unit))
    (s : σ) : (outcome (orStop cause call) s).2 = (call.run s).2 := by
  rw [outcome_orStop (Prod.mk.eta (p := call.run s)).symm]

section

variable {m : Type → Type} [Monad m] [FileSystem m]

theorem writeFile_of_parent?_eq_none (h : (p.pathOf f).parent? = none) :
    (p.writeFile f : ExceptT CreateError m Unit) =
      orStop (.file (p.pathOf f)) (writeText (p.pathOf f) (f.text p.name p.manager)) := by
  rw [pathOf] at h
  unfold writeFile
  dsimp only
  rw [h]
  rfl

theorem writeFile_of_parent?_eq_some {parent : Path} (h : (p.pathOf f).parent? = some parent) :
    (p.writeFile f : ExceptT CreateError m Unit) =
      (orStop (.directory parent) (createDirectories parent) >>= fun _ =>
        orStop (.file (p.pathOf f)) (writeText (p.pathOf f) (f.text p.name p.manager))) := by
  rw [pathOf] at h
  unfold writeFile
  dsimp only
  rw [h]
  rfl

end

/-- Something is kept by the calls that put files of a project in place. -/
structure IsKept [FileSystem (StateM σ)] (p : NewProject) (files : List SkeletonFile)
    (I : σ → Prop) : Prop where
  /-- It is kept when the directory of a file is made. -/
  make : ∀ f ∈ files, ∀ q, (p.pathOf f).parent? = some q →
    ∀ s, I s → I ((createDirectories q : StateM σ _).run s).2
  /-- It is kept when a file is written. -/
  write : ∀ f ∈ files, ∀ s, I s →
    I ((writeText (p.pathOf f) (f.text p.name p.manager) : StateM σ _).run s).2

variable [FileSystem (StateM σ)] {I : σ → Prop}

theorem IsKept.writeFile (h : p.IsKept files I) (hf : f ∈ files) (hs : I s) :
    I (outcome (p.writeFile f) s).2 := by
  cases hparent : (p.pathOf f).parent? with
  | none =>
    rw [writeFile_of_parent?_eq_none hparent, outcome_orStop_snd]
    exact h.write f hf s hs
  | some parent =>
    rw [writeFile_of_parent?_eq_some hparent]
    refine outcome_bind_invariant ?_ fun _ s' hs' => ?_
    · rw [outcome_orStop_snd]
      exact h.make f hf parent hparent s hs
    · rw [outcome_orStop_snd]
      exact h.write f hf s' hs'

/-- **What putting each file in place keeps, putting all in place keeps.** -/
theorem IsKept.writeFiles (h : p.IsKept files I) (hs : I s) :
    I (outcome (p.writeFiles files) s).2 := by
  induction files generalizing s with
  | nil => exact hs
  | cons f rest ih =>
    refine outcome_bind_invariant (h.writeFile (List.mem_cons_self ..) hs) fun _ s' hs' => ?_
    exact ih ⟨fun g hg => h.make g (List.mem_cons_of_mem _ hg),
      fun g hg => h.write g (List.mem_cons_of_mem _ hg)⟩ hs'

/-- **What the calls keep, creating a project keeps**, whatever it comes to. -/
theorem create_invariant (h : p.IsKept skeletonFiles I)
    (hmake : ∀ s, I s → I ((createDirectories p.target : StateM σ _).run s).2) (hs : I s) :
    I (outcome p.create s).2 := by
  refine outcome_bind_invariant ?_ fun _ s' hs' => h.writeFiles hs'
  rw [outcome_orStop_snd]
  exact hmake s hs

end

/-! ### Trees -/

section

variable {t t' : FileTree}

/-- No directory goes away while files are put in place. -/
theorem isKept_grows (p : NewProject) (files : List SkeletonFile) (t : FileTree) :
    p.IsKept files (FileTree.Grows t) where
  make _ _ q _ s hs := hs.trans (FileTree.grows_createDirectories q s)
  write _ _ s hs := hs.trans (FileTree.grows_writeText _ _ s)

theorem grows_create (p : NewProject) (t : FileTree) :
    FileTree.Grows t (outcome p.create t).2 :=
  create_invariant (isKept_grows p skeletonFiles t)
    (fun s hs => hs.trans (FileTree.grows_createDirectories p.target s)) (.refl t)

/-- Everything still stands in a directory while files are put in place. -/
theorem isKept_isRooted (p : NewProject) (files : List SkeletonFile) :
    p.IsKept files FileTree.IsRooted where
  make _ _ q _ _ hs := hs.createDirectories q
  write _ _ _ hs := hs.writeText _ _

/-- **Creating a project keeps a tree rooted.** -/
theorem isRooted_create (p : NewProject) (h : t.IsRooted) : (outcome p.create t).2.IsRooted :=
  create_invariant (isKept_isRooted p skeletonFiles) (fun _ hs => hs.createDirectories p.target) h

/-- Putting files in place changes their places, and makes directories of the project. -/
theorem isKept_frame (hfiles : files ⊆ skeletonFiles) (t : FileTree) :
    p.IsKept files (FileTree.view.Frame (p.filePlaces t files) (p.directoryPlaces t) t) where
  make f hf q hq s hs := by
    have hmade {r : Path} (hr : r.Above (p.pathOf f)) : s.target r ∈ p.directoryPlaces t := by
      rw [show s.target r = t.target r from congrFun hs.place_eq r]
      exact target_mem_directoryPlaces_of_above (hfiles hf) hr
    have hframe := FileTree.isLawful_view.frame_createDirectories q s (hmade (.parent hq))
      fun r hr => hmade (.above hq hr)
    exact hs.trans (hframe.mono (Set.empty_subset _) subset_rfl)
  write f hf s hs := by
    refine hs.trans ((FileTree.isLawful_view.frame_writeText _ _ s).mono ?_ subset_rfl)
    rintro l rfl
    exact ⟨f, hf, congrFun hs.place_eq _⟩

theorem frame_writeFiles (hfiles : files ⊆ skeletonFiles) (t : FileTree) :
    FileTree.view.Frame (p.filePlaces t files) (p.directoryPlaces t) t
      (outcome (p.writeFiles files) t).2 :=
  (isKept_frame hfiles t).writeFiles (.refl t)

/-- **Only places of the project change, and missing directories above it**, whatever creating the
project comes to. -/
theorem frame_create (p : NewProject) (t : FileTree) :
    FileTree.view.Frame (p.filePlaces t skeletonFiles) (p.directoryPlaces t) t
      (outcome p.create t).2 := by
  refine create_invariant (isKept_frame (List.Subset.refl _) t) (fun s hs => ?_) (.refl t)
  have hmade {r : Path} (hr : r = p.target ∨ r.Above p.target) :
      s.target r ∈ p.directoryPlaces t := by
    rw [show s.target r = t.target r from congrFun hs.place_eq r]
    exact target_mem_directoryPlaces hr
  have hframe := FileTree.isLawful_view.frame_createDirectories p.target s (hmade (.inl rfl))
    fun r hr => hmade (.inr hr)
  exact hs.trans (hframe.mono (Set.empty_subset _) subset_rfl)

/-! ### Success -/

/-- A file that was put in place can be read. -/
theorem read_of_writeFile (h : outcome (p.writeFile f) t = (.ok (), t')) :
    t'.read (p.pathOf f) = .ok (f.text p.name p.manager) := by
  cases hparent : (p.pathOf f).parent? with
  | none =>
    rw [writeFile_of_parent?_eq_none hparent] at h
    exact FileTree.read_of_writeText (outcome_orStop_eq_ok h)
  | some parent =>
    rw [writeFile_of_parent?_eq_some hparent, outcome_bind_eq_ok] at h
    obtain ⟨_, s, -, hwrite⟩ := h
    exact FileTree.read_of_writeText (outcome_orStop_eq_ok hwrite)

/-- **All files that were put in place can be read**: none is written over by another. -/
theorem read_of_writeFiles (hfiles : files ⊆ skeletonFiles)
    (hapart : files.Pairwise fun f g => f.path.components ≠ g.path.components)
    (h : outcome (p.writeFiles files) t = (.ok (), t')) :
    ∀ f ∈ files, t'.read (p.pathOf f) = .ok (f.text p.name p.manager) := by
  induction files generalizing t with
  | nil => exact fun f hf => absurd hf List.not_mem_nil
  | cons f rest ih =>
    obtain ⟨hf, hrest⟩ := List.pairwise_cons.1 hapart
    obtain ⟨hfFile, hrestFiles⟩ := List.cons_subset.1 hfiles
    obtain ⟨⟨⟩, t₁, hfirst, hnext⟩ := outcome_bind_eq_ok.1 h
    have hread := read_of_writeFile hfirst
    have hgrows := (isKept_grows p rest t₁).writeFiles (.refl t₁)
    have hframe := frame_writeFiles (p := p) hrestFiles t₁
    rw [hnext] at hgrows hframe
    -- the place of the file is that of no other
    have hplace : t₁.target (p.pathOf f) ∉ p.filePlaces t₁ rest := by
      rintro ⟨g, hg, heq⟩
      exact target_pathOf_ne hfFile (hrestFiles hg) (hf g hg) heq
    have hnode := hframe.node?_eq_some (FileTree.read_eq_ok_iff.1 hread).2 hplace
    exact List.forall_mem_cons.2 ⟨hgrows.read hread hnode, ih hrestFiles hrest hnext⟩

/-- **A created project has its directory and all of its files.** -/
theorem read_of_create (htarget : p.target.components ≠ [])
    (h : outcome p.create t = (.ok (), t')) :
    t'.hasDirectory p.target = true ∧
      ∀ f ∈ skeletonFiles, t'.read (p.pathOf f) = .ok (f.text p.name p.manager) := by
  obtain ⟨⟨⟩, t₁, hmake, hfiles⟩ := outcome_bind_eq_ok.1 h
  have hdirectory :=
    (FileTree.hasDirectory_of_createDirectories (outcome_orStop_eq_ok hmake)).resolve_left htarget
  have hgrows := (isKept_grows p skeletonFiles t₁).writeFiles (.refl t₁)
  rw [hfiles] at hgrows
  exact ⟨hgrows.hasDirectory hdirectory,
    read_of_writeFiles (List.Subset.refl _) pairwise_components_skeletonFiles hfiles⟩

end

end NewProject

end SchemaForge.Skeleton
