import SchemaForge.Proofs.Skeleton.Creating
import SchemaForge.Proofs.Skeleton.Template

/-!
# A project in a directory of its own

A project is asked for by a name and a directory.  The request is checked first, and nothing is
written then.  A project that passes the checks goes one component below the directory, to a place
where its path finds nothing.

A `..` behind a directory that is missing finds nothing either, until the directory is made with the
project.  So a project has its directory for itself if every `..` leaves a directory that is there;
otherwise it may be put into a directory with other files.

## Main definitions

* `requested` — the project that is asked for.

## Main results

* `prepare_eq_ok_iff` — **a request passes exactly when its name is one for a project and its path
  finds nothing.**
* `node?_eq_none_of_create` — where a project goes, there was nothing.
* `project_has_directory` — **a project is created in one directory, with all of its files.**
* `project_in_old_directory` — a project put into a directory with another file.
-/

namespace SchemaForge.Skeleton.NewProject

open Text

/-- The project that is asked for: the name loses the blanks around it. -/
def requested (name : String) (manager : PackageManager) (directory : Option Path) :
    NewProject where
  name := String.ofList (trim name.toList)
  manager := manager
  target :=
    match directory with
    | some d => d.child (String.ofList (trim name.toList))
    | none => ⟨String.ofList (trim name.toList)⟩

section

variable {name : String} {manager : PackageManager} {directory : Option Path} {p : NewProject}
  {t t' : FileTree}

/-- Without a directory, a project goes into the one that relative paths start from. -/
theorem target_requested (name : String) (manager : PackageManager) (directory : Option Path) :
    (requested name manager directory).target =
      (directory.getD ⟨""⟩).child (requested name manager directory).name := by
  cases directory with
  | some d => rfl
  | none => simp [requested, Path.child, Path.join]

/-! ### Requests -/

/-- **What checking a request comes to**; nothing is written. -/
theorem outcome_prepare (name : String) (manager : PackageManager) (directory : Option Path)
    (t : FileTree) :
    outcome (prepare name manager directory) t =
      (match projectName name with
        | .error fault => .error (.name fault)
        | .ok _ =>
          if (t.nodeAt (requested name manager directory).target).toBool then
            .error (.taken (requested name manager directory).target)
          else .ok (requested name manager directory), t) := by
  unfold prepare
  cases hname : projectName name with
  | error fault => rfl
  | ok found =>
    obtain ⟨-, rfl⟩ := projectName_eq_ok_iff.1 hname
    dsimp only
    have hcall : outcome (liftM (FileSystem.isPresent (requested name manager directory).target) :
        ExceptT CreateError (StateM FileTree) Bool) t =
          (.ok (t.nodeAt (requested name manager directory).target).toBool, t) :=
      outcome_liftM rfl
    refine (outcome_bind_of_ok hcall).trans ?_
    cases (t.nodeAt (requested name manager directory).target).toBool <;> rfl

/-- **A request passes exactly when its name is one for a project and its path finds nothing.** -/
theorem prepare_eq_ok_iff :
    (outcome (prepare name manager directory) t).1 = .ok p ↔
      IsProjectName (trim name.toList) ∧
        (∀ node, t.nodeAt (requested name manager directory).target ≠ .ok node) ∧
        p = requested name manager directory := by
  rw [outcome_prepare]
  cases hname : projectName name with
  | error fault =>
    constructor
    · intro h
      cases h
    · rintro ⟨hproject, -⟩
      rw [projectName_eq_ok_iff.2 ⟨hproject, rfl⟩] at hname
      cases hname
  | ok found =>
    obtain ⟨hproject, -⟩ := projectName_eq_ok_iff.1 hname
    dsimp only
    cases hnode : t.nodeAt (requested name manager directory).target with
    | error e =>
      constructor
      · intro h
        cases h
        exact ⟨hproject, nofun, rfl⟩
      · rintro ⟨-, -, rfl⟩
        rfl
    | ok node =>
      constructor
      · intro h
        cases h
      · rintro ⟨-, hnone, -⟩
        exact absurd rfl (hnone node)

/-- **A project goes one component below its directory.** -/
theorem components_target (manager : PackageManager) (directory : Option Path)
    (hname : IsProjectName (trim name.toList)) :
    (requested name manager directory).target.components =
      (directory.getD ⟨""⟩).components ++ [.name (requested name manager directory).name] := by
  rw [target_requested]
  exact Path.components_child _ hname.isName

/-! ### The directory -/

/-- What stands at the place of a project whose directory was created stood there as one. -/
theorem directory_of_stands (hcreate : outcome p.create t = (.ok (), t'))
    (htarget : p.target.components ≠ []) (hstands : t.node? (t.target p.target) ≠ none) :
    t.node? (t.target p.target) = some .directory := by
  have hframe := frame_create p t
  have hgrows := grows_create p t
  rw [hcreate] at hframe hgrows
  obtain ⟨-, hthere⟩ := FileTree.hasDirectory_iff.1 (read_of_create htarget hcreate).1
  rw [hgrows.target_eq] at hthere
  rcases hframe.node?_eq (t.target p.target) with heq | ⟨f, hf, heq⟩ | ⟨-, hnone, -⟩
  · exact heq.symm.trans hthere
  · -- no file goes to the place of the directory
    obtain ⟨-, names, hne, hnames⟩ := exists_names_of_mem_skeletonFiles hf
    rw [target_pathOf p t hf, hnames, foldl_enter_names] at heq
    exact absurd (List.append_cancel_left ((List.append_nil _).trans heq)).symm hne
  · exact absurd hnone hstands

/-- **Where a project goes, there was nothing**, if its path found nothing and leaves no directory
that is missing. -/
theorem node?_eq_none_of_create (hnone : ∀ node, t.nodeAt p.target ≠ .ok node)
    (hcreate : outcome p.create t = (.ok (), t')) (htarget : p.target.components ≠ [])
    (hrooted : t.IsRooted) (hleaves : t.Leaves t.current p.target.components) {l : Location}
    (hl : t.target p.target <+: l) : t.node? l = none := by
  by_contra hstands
  have hplace : t.node? (t.target p.target) ≠ none := by
    by_cases heq : t.target p.target = l
    · rwa [heq]
    · rw [hrooted.directory_of_isPrefix hstands hl heq]
      exact nofun
  have hdirectory := directory_of_stands hcreate htarget hplace
  have hgrows := grows_create p t
  rw [hcreate] at hgrows
  have hfound := hrooted.hasDirectory hgrows hleaves (read_of_create htarget hcreate).1 hdirectory
  obtain ⟨hlocate, -⟩ := FileTree.hasDirectory_iff.1 hfound
  exact hnone .directory (FileTree.nodeAt_eq_ok_iff.2 ⟨hlocate, hdirectory⟩)

/-- **Nothing else is in the directory of a project.** -/
theorem mem_skeletonPlaces_of_create (hnone : ∀ node, t.nodeAt p.target ≠ .ok node)
    (hcreate : outcome p.create t = (.ok (), t')) (htarget : p.target.components ≠ [])
    (hrooted : t.IsRooted) (hleaves : t.Leaves t.current p.target.components) {l : Location}
    (hl : t.target p.target <+: l) (hthere : t'.node? l ≠ none) :
    l ∈ skeletonPlaces (t.target p.target) := by
  have hvacant := node?_eq_none_of_create hnone hcreate htarget hrooted hleaves hl
  have hframe := frame_create p t
  rw [hcreate] at hframe
  rcases hframe.node?_eq l with heq | hwritten | ⟨hmade, -, -⟩
  · exact absurd (heq.trans hvacant) hthere
  · exact filePlaces_subset (List.Subset.refl _) l hwritten
  rcases hmade with ⟨front, below, hroot, hcomponents, rfl⟩ | hmade
  · -- a directory that was made on the way is above the project, so it is the project's
    rw [hcomponents, FileTree.leaves_append_iff] at hleaves
    rcases hrooted.directory_or_isPrefix hleaves.2 hroot with hdirectory | habove
    · exact absurd (hvacant.symm.trans hdirectory) nofun
    · rw [← List.foldl_append, ← hcomponents] at habove
      have heq : t.target p.target = front.foldl Component.enter t.current :=
        hl.eq_of_length (Nat.le_antisymm hl.length_le habove.length_le)
      rw [← heq]
      obtain ⟨f, hf⟩ := List.exists_mem_of_ne_nil skeletonFiles (by decide)
      exact mem_skeletonPlaces.2 ⟨f, hf, [], List.nil_prefix, rfl⟩
  · exact hmade

/-! ### Projects -/

/-- Whatever creating a project comes to, only its own places change, and directories that are
missing on the way to it are made. -/
theorem node?_of_create {result : Except CreateError Unit}
    (hcreate : outcome p.create t = (result, t')) (l : Location) :
    t'.node? l = t.node? l ∨
      (t.target p.target <+: l ∧ l ∈ skeletonPlaces (t.target p.target)) ∨
      (∃ front, front <+: p.target.components ∧ l = front.foldl Component.enter t.current) ∧
        t.node? l = none ∧ t'.node? l = some .directory := by
  have hframe := frame_create p t
  rw [hcreate] at hframe
  have hplace (hl : l ∈ skeletonPlaces (t.target p.target)) :
      t.target p.target <+: l ∧ l ∈ skeletonPlaces (t.target p.target) :=
    ⟨isPrefix_of_mem_skeletonPlaces hl, hl⟩
  rcases hframe.node?_eq l with heq | hwritten | ⟨hmade | hmade, hmissing, hdirectory⟩
  · exact .inl heq
  · exact .inr (.inl (hplace (filePlaces_subset (List.Subset.refl _) l hwritten)))
  · obtain ⟨front, below, -, hfront, hl⟩ := hmade
    exact .inr (.inr ⟨⟨front, ⟨below, hfront.symm⟩, hl⟩, hmissing, hdirectory⟩)
  · exact .inr (.inl (hplace hmade))

/-- **A project is created in one directory, with all of its files.**  A request passes exactly when
its name is one for a project and its path finds nothing, and nothing is written then.  The project
goes one component below the directory.  Whatever creating it comes to, only its own places change,
and missing directories on the way to it are made.  A project that is created has every file with
the text of its template, in which no slot is left.  It has its directory for itself if every `..`
of the path to it leaves a directory that is there. -/
theorem project_has_directory (name : String) (manager : PackageManager)
    (directory : Option Path) (t : FileTree) :
    (outcome (prepare name manager directory) t).2 = t ∧
    (∀ p, (outcome (prepare name manager directory) t).1 = .ok p ↔
      IsProjectName (trim name.toList) ∧
        (∀ node, t.nodeAt (requested name manager directory).target ≠ .ok node) ∧
        p = requested name manager directory) ∧
    ∀ p, (outcome (prepare name manager directory) t).1 = .ok p →
      p.target.components = (directory.getD ⟨""⟩).components ++ [.name p.name] ∧
      (∀ result t', outcome p.create t = (result, t') → t'.current = t.current ∧
        ∀ l, t'.node? l = t.node? l ∨
          (t.target p.target <+: l ∧ l ∈ skeletonPlaces (t.target p.target)) ∨
          (∃ front, front <+: p.target.components ∧
            l = front.foldl Component.enter t.current) ∧
          t.node? l = none ∧ t'.node? l = some .directory) ∧
      ∀ t', outcome p.create t = (.ok (), t') →
        (∀ f ∈ skeletonFiles,
          t'.read (p.target.join f.path) = .ok (f.template.fill (slotValue p.name p.manager)) ∧
          ¬ slotMark <:+: (f.template.fill (slotValue p.name p.manager)).toList) ∧
        (t.IsRooted → t.Leaves t.current (directory.getD ⟨""⟩).components →
          ∀ l, t.target p.target <+: l → t'.node? l ≠ none →
            l ∈ skeletonPlaces (t.target p.target)) := by
  refine ⟨by rw [outcome_prepare], fun p => prepare_eq_ok_iff, fun p hp => ?_⟩
  obtain ⟨hname, hnone, rfl⟩ := prepare_eq_ok_iff.1 hp
  have hcomponents := components_target manager directory hname
  have htarget : (requested name manager directory).target.components ≠ [] := by
    rw [hcomponents]
    exact List.concat_ne_nil _ _
  refine ⟨hcomponents, fun result t' hcreate => ?_, fun t' hcreate => ⟨fun f hf => ⟨?_, ?_⟩, ?_⟩⟩
  · have hgrows := grows_create (requested name manager directory) t
    rw [hcreate] at hgrows
    exact ⟨hgrows.current_eq, node?_of_create hcreate⟩
  · exact (read_of_create htarget hcreate).2 f hf
  · refine not_slotMark_isInfix_text ?_ manager hf
    show ∀ c ∈ (String.ofList (trim name.toList)).toList, isPlain c = true
    rw [String.toList_ofList]
    exact hname.plain
  · intro hrooted hleaves l
    refine mem_skeletonPlaces_of_create hnone hcreate htarget hrooted ?_
    rw [hcomponents, FileTree.leaves_append_iff]
    exact ⟨hleaves, (FileTree.leaves_cons_of_ne (by simp)).2 trivial⟩

end

/-- A directory with a file, from which relative paths start. -/
def freshTree : FileTree where
  entries := [(["w"], .directory), (["w", "notes.txt"], .text "keep")]
  current := ["w"]

theorem create_freshTree :
    ∃ t', outcome (requested " b " .npm (some ⟨"../w"⟩)).create freshTree = (.ok (), t') :=
  exists_outcome_eq (by decide +kernel)

theorem project_has_directory_sample :
    (outcome (prepare " b " .npm (some ⟨"../w"⟩)) freshTree).1 =
        .ok (requested " b " .npm (some ⟨"../w"⟩)) ∧
      freshTree.IsRooted ∧ freshTree.Leaves freshTree.current (⟨"../w"⟩ : Path).components ∧
      ∃ t', outcome (requested " b " .npm (some ⟨"../w"⟩)).create freshTree = (.ok (), t') ∧
        (∀ f ∈ skeletonFiles,
          t'.read ((requested " b " .npm (some ⟨"../w"⟩)).target.join f.path) =
            .ok (f.template.fill (slotValue "b" .npm))) ∧
        ∀ l, ["w", "b"] <+: l → t'.node? l ≠ none → l ∈ skeletonPlaces ["w", "b"] := by
  have hprepare : (outcome (prepare " b " .npm (some ⟨"../w"⟩)) freshTree).1 =
      .ok (requested " b " .npm (some ⟨"../w"⟩)) := by
    decide +kernel
  have hrooted : freshTree.IsRooted := by decide +kernel
  have hleaves : freshTree.Leaves freshTree.current (⟨"../w"⟩ : Path).components :=
    FileTree.leaves_of_hasDirectory (by decide +kernel)
  have htarget : freshTree.target (requested " b " .npm (some ⟨"../w"⟩)).target = ["w", "b"] := by
    decide +kernel
  have hname : (requested " b " .npm (some ⟨"../w"⟩)).name = "b" := by decide +kernel
  obtain ⟨t', hcreate⟩ := create_freshTree
  obtain ⟨-, -, hproject⟩ := project_has_directory " b " .npm (some ⟨"../w"⟩) freshTree
  obtain ⟨-, -, hsuccess⟩ := hproject _ hprepare
  obtain ⟨hfiles, hnothing⟩ := hsuccess t' hcreate
  rw [htarget] at hnothing
  rw [hname] at hfiles
  exact ⟨hprepare, hrooted, hleaves, t', hcreate, fun f hf => (hfiles f hf).1,
    hnothing hrooted hleaves⟩

/-- A directory with a file, named as a project may be. -/
def usedTree : FileTree where
  entries := [(["shop"], .directory), (["shop", "notes.txt"], .text "keep")]
  current := []

theorem create_usedTree :
    ∃ t', outcome (requested "shop" .bun (some ⟨"new/.."⟩)).create usedTree = (.ok (), t') :=
  exists_outcome_eq (by decide +kernel)

/-- **A project may be put into a directory with another file**: behind the missing directory `new`
its path finds nothing, and leads to the other directory once `new` is made. -/
theorem project_in_old_directory :
    usedTree.IsRooted ∧ usedTree.hasDirectory ⟨"shop"⟩ = true ∧
      (outcome (prepare "shop" .bun (some ⟨"new/.."⟩)) usedTree).1 =
        .ok (requested "shop" .bun (some ⟨"new/.."⟩)) ∧
      usedTree.target (requested "shop" .bun (some ⟨"new/.."⟩)).target = ["shop"] ∧
      ∃ t', outcome (requested "shop" .bun (some ⟨"new/.."⟩)).create usedTree = (.ok (), t') ∧
        t'.node? ["shop", "notes.txt"] = some (.text "keep") ∧
        ["shop", "notes.txt"] ∉ skeletonPlaces ["shop"] := by
  have htarget : usedTree.target (requested "shop" .bun (some ⟨"new/.."⟩)).target = ["shop"] := by
    decide +kernel
  have hapart : ["shop", "notes.txt"] ∉ skeletonPlaces ["shop"] := by decide +kernel
  have hold : usedTree.node? ["shop", "notes.txt"] = some (.text "keep") := by decide +kernel
  obtain ⟨t', hcreate⟩ := create_usedTree
  refine ⟨by decide +kernel, by decide +kernel, by decide +kernel, htarget, t', hcreate, ?_, hapart⟩
  rcases node?_of_create hcreate ["shop", "notes.txt"] with heq | ⟨-, hplace⟩ | ⟨-, hmissing, -⟩
  · rw [heq, hold]
  · rw [htarget] at hplace
    exact absurd hplace hapart
  · rw [hold] at hmissing
    cases hmissing

end SchemaForge.Skeleton.NewProject
