import SchemaForge.Proofs.FileTree.Lawful

/-!
# Trees that grow

Calls add directories and files to a tree, and no call takes a directory away.  What can be walked
before can be walked after, so files stay where they can be read, and directories where they need
not be made again.

## Main definitions

* `FileTree.Grows` — no directory goes away.
* `FileTree.HasParent` — the directory of a path is there.

## Main results

* `FileTree.Grows.locate` — a path leads in a grown tree where it led before.
* `FileTree.hasDirectory_of_createDirectories` — a directory that was made is there.
* `FileTree.run_createDirectories_of_hasDirectory`, `FileTree.run_writeText_of_read` — **what is
  there already is not changed by making it.**
-/

namespace SchemaForge.FileTree

open FileSystem (createDirectory createDirectories createFrom settle writeText)

/-- No directory goes away, and relative paths start from the same one. -/
structure Grows (t t' : FileTree) : Prop where
  /-- Relative paths start from the same directory. -/
  current_eq : t'.current = t.current
  /-- Directories stay. -/
  node?_eq {l : Location} (h : t.node? l = some .directory) : t'.node? l = some .directory

variable {t t' t'' : FileTree} {p : Path} {l here : Location}

namespace Grows

theorem refl (t : FileTree) : Grows t t :=
  ⟨rfl, id⟩

theorem trans (h : Grows t t') (h' : Grows t' t'') : Grows t t'' :=
  ⟨h'.current_eq.trans h.current_eq, fun hl => h'.node?_eq (h.node?_eq hl)⟩

theorem set (h : t.node? l ≠ some .directory) (node : FileNode) : Grows t (t.set l node) where
  current_eq := rfl
  node?_eq {k} hk := by
    have hne : k ≠ l := by
      rintro rfl
      exact h hk
    rw [node?_set_of_ne t hne, hk]

theorem target_eq (h : Grows t t') (p : Path) : t'.target p = t.target p := by
  rw [target, target, h.current_eq]

/-! ### Walks -/

theorem walk (h : Grows t t') {pieces : List (List Char)} (hwalk : t.walk here pieces = .ok l) :
    t'.walk here pieces = .ok l := by
  induction pieces generalizing here with
  | nil => exact hwalk
  | cons piece rest ih =>
    have hhere := node?_of_walk_cons hwalk
    rw [walk_cons_of_directory piece rest hhere] at hwalk
    rw [walk_cons_of_directory piece rest (h.node?_eq hhere)]
    split at hwalk
    · next hnothing =>
      rw [if_pos hnothing]
      exact ih hwalk
    · next hnothing =>
      rw [if_neg hnothing]
      split at hwalk
      · next hparent =>
        rw [if_pos hparent]
        exact ih hwalk
      · next hparent =>
        rw [if_neg hparent]
        split at hwalk
        · cases hwalk
        · next hshort =>
          rw [if_neg hshort]
          exact ih hwalk

end Grows

/-- What a path is refused for, whatever stands on the way, has nothing to do with the tree. -/
theorem locatePieces_of_walk {pieces pieces' : List (List Char)} {l' : Location}
    (h : t.locatePieces p pieces = .ok l)
    (hwalk : t'.walk (if p.isAbsolute then [] else t'.current) pieces' = .ok l') :
    t'.locatePieces p pieces' = .ok l' := by
  rw [locatePieces] at h ⊢
  split at h
  · cases h
  · next hnul =>
    rw [if_neg hnul]
    split at h
    · cases h
    · next hempty =>
      rw [if_neg hempty]
      split at h
      · cases h
      · next hlong =>
        rw [if_neg hlong]
        exact hwalk

/-- A path leads in a grown tree where it led before. -/
theorem Grows.locate (h : Grows t t') (hlocate : t.locate p = .ok l) : t'.locate p = .ok l := by
  refine locatePieces_of_walk hlocate (h.walk ?_)
  rw [h.current_eq]
  exact walk_of_locatePieces hlocate

/-- A walk in two parts goes on where the first ends. -/
theorem walk_append_eq_ok_iff {pieces rest : List (List Char)} :
    t.walk here (pieces ++ rest) = .ok l ↔
      ∃ l', t.walk here pieces = .ok l' ∧ t.walk l' rest = .ok l := by
  induction pieces generalizing here with
  | nil =>
    constructor
    · intro h
      exact ⟨here, rfl, h⟩
    · rintro ⟨l', hl', h⟩
      cases hl'
      exact h
  | cons piece pieces ih =>
    by_cases hhere : t.node? here = some .directory
    case neg =>
      constructor
      · intro h
        exact absurd (node?_of_walk_cons h) hhere
      · rintro ⟨l', hl', -⟩
        exact absurd (node?_of_walk_cons hl') hhere
    rw [List.cons_append, walk_cons_of_directory piece _ hhere,
      walk_cons_of_directory piece _ hhere]
    split
    · exact ih
    · split
      · exact ih
      · split
        · constructor
          · intro h
            cases h
          · rintro ⟨l', hl', -⟩
            cases hl'
        · exact ih

/-- Empty pieces lead nowhere else. -/
theorem walk_of_forall_eq_nil (h : t.node? l = some .directory) {pieces : List (List Char)}
    (hempty : ∀ piece ∈ pieces, piece = []) : t.walk l pieces = .ok l := by
  induction pieces with
  | nil => rfl
  | cons piece rest ih =>
    obtain ⟨rfl, hrest⟩ := List.forall_mem_cons.1 hempty
    rw [walk_cons_of_directory [] rest h, if_pos (.inl rfl)]
    exact ih hrest

/-! ### Looking -/

theorem nodeAt_eq_ok_iff {node : FileNode} :
    t.nodeAt p = .ok node ↔
      t.locate p = .ok (t.target p) ∧ t.node? (t.target p) = some node := by
  cases hlocate : t.locate p with
  | error e =>
    rw [nodeAt, hlocate]
    constructor
    · intro h
      cases h
    · rintro ⟨h, -⟩
      cases h
  | ok l =>
    obtain rfl := locate_eq_ok hlocate
    rw [nodeAt, hlocate]
    dsimp only [bind, Except.bind]
    cases t.node? (t.target p) with
    | none =>
      constructor
      · intro h
        cases h
      · rintro ⟨-, h⟩
        cases h
    | some found =>
      constructor
      · rintro ⟨⟩
        exact ⟨rfl, rfl⟩
      · rintro ⟨-, ⟨⟩⟩
        rfl

theorem read_eq_ok_iff {text : String} :
    t.read p = .ok text ↔
      t.locate p = .ok (t.target p) ∧ t.node? (t.target p) = some (.text text) := by
  rw [← nodeAt_eq_ok_iff, read]
  rcases t.nodeAt p with e | ⟨_ | s | bytes⟩
  case ok.text =>
    constructor
    · rintro ⟨⟩
      rfl
    · rintro ⟨⟩
      rfl
  all_goals
    constructor
    · intro h
      cases h
    · intro h
      cases h

theorem hasDirectory_iff :
    t.hasDirectory p = true ↔
      t.locate p = .ok (t.target p) ∧ t.node? (t.target p) = some .directory := by
  rw [← nodeAt_eq_ok_iff, hasDirectory]
  split
  · next h => simp [h]
  · next h => exact iff_of_false Bool.false_ne_true h

/-- What could be read can be read in a grown tree, if it is still there. -/
theorem Grows.read (h : Grows t t') {text : String} (hread : t.read p = .ok text)
    (hnode : t'.node? (t.target p) = some (.text text)) : t'.read p = .ok text := by
  rw [read_eq_ok_iff] at hread ⊢
  rw [h.target_eq]
  exact ⟨h.locate hread.1, hnode⟩

theorem Grows.hasDirectory (h : Grows t t') (hp : t.hasDirectory p = true) :
    t'.hasDirectory p = true := by
  rw [hasDirectory_iff] at hp ⊢
  rw [h.target_eq]
  exact ⟨h.locate hp.1, h.node?_eq hp.2⟩

/-! ### Making directories -/

theorem grows_createDirectory (p : Path) (t : FileTree) :
    Grows t ((createDirectory p : StateM FileTree _).run t).2 := by
  rcases run_createDirectory_cases p t with hsame | ⟨hnone, hset⟩
  · rw [hsame]
    exact .refl t
  · rw [hset]
    exact .set (node?_ne_of_eq_none hnone) .directory

theorem grows_createDirectories (p : Path) (t : FileTree) :
    Grows t ((createDirectories p : StateM FileTree _).run t).2 :=
  FileSystem.run_createDirectories_invariant isLawful_view.isDirectory_state
    (fun q _ t₁ h => h.trans (grows_createDirectory q t₁)) (.refl t)

/-- A path without slashes at its end leads to the directory that the path leads to. -/
theorem locate_of_locateNew (hgrows : Grows t t') (h : t.locateNew p = .ok l)
    (hl : t'.node? l = some .directory) : t'.locate p = .ok l := by
  obtain ⟨empty, hpieces, hempty⟩ :=
    exists_append_eq_dropWhile_isEmpty (Path.splitSlash p.text.toList)
  refine locatePieces_of_walk h ?_
  rw [hpieces, hgrows.current_eq]
  exact walk_append_eq_ok_iff.2
    ⟨l, hgrows.walk (walk_of_locatePieces h), walk_of_forall_eq_nil hl hempty⟩

theorem locateNew_of_locate (h : t.locate p = .ok l) : t.locateNew p = .ok l := by
  obtain ⟨empty, hpieces, hempty⟩ :=
    exists_append_eq_dropWhile_isEmpty (Path.splitSlash p.text.toList)
  have hwalk := walk_of_locatePieces h
  rw [hpieces] at hwalk
  obtain ⟨l', hl', -⟩ := walk_append_eq_ok_iff.1 hwalk
  have hnew : t.locateNew p = .ok l' := locatePieces_of_walk h hl'
  rw [hnew, locateNew_eq_ok hnew, locate_eq_ok h]

/-- A directory that was made is there. -/
theorem hasDirectory_of_settle {outcome : Except OsError Unit}
    (hcreate : (createDirectory p : StateM FileTree _).run t = (outcome, t'))
    (hsettle : (settle p outcome : StateM FileTree _).run t' = (.ok (), t'')) :
    t''.hasDirectory p = true := by
  cases outcome with
  | error e =>
    have hsettle' : ((if t'.hasDirectory p = true then .ok () else .error e : Except OsError Unit),
        t') = (.ok (), t'') := hsettle
    obtain ⟨hanswer, rfl⟩ := Prod.mk.inj hsettle'
    split at hanswer
    · assumption
    · cases hanswer
  | ok _ =>
    cases hsettle
    obtain ⟨hlocate, hnone, rfl⟩ := makeDirectory_eq_ok (run_commit_eq_ok_iff.1 hcreate)
    have hdirectory := node?_ne_of_eq_none hnone
    have hthere := node?_set_self t (ne_nil_of_node?_ne hdirectory) .directory
    exact hasDirectory_iff.2 ⟨locate_of_locateNew (.set hdirectory _) hlocate hthere, hthere⟩

/-- The directory that a path lies in is there, if the path has one.  The empty path is the
directory that relative paths start from. -/
def HasParent (t : FileTree) (p : Path) : Prop :=
  ∀ parent, p.parent? = some parent → parent.components = [] ∨ t.hasDirectory parent = true

theorem Grows.hasParent (h : Grows t t') (hp : t.HasParent p) : t'.HasParent p := by
  intro parent hparent
  rcases hp parent hparent with hempty | hdirectory
  · exact .inl hempty
  · exact .inr (h.hasDirectory hdirectory)

/-- A directory that was made with all above it is there. -/
theorem hasDirectory_of_createDirectories
    (h : (createDirectories p : StateM FileTree _).run t = (.ok (), t')) :
    p.components = [] ∨ t'.hasDirectory p = true := by
  rw [createDirectories] at h
  cases hcount : p.components.length with
  | zero => exact .inl (List.length_eq_zero_iff.1 hcount)
  | succ n =>
    rw [hcount] at h
    obtain ⟨t₁, outcome, t₂, hcreate, hsettle⟩ := FileSystem.exists_settle_of_run_createFrom h
    exact .inr (hasDirectory_of_settle hcreate hsettle)

/-- **A directory that is there is not changed by making it.** -/
theorem run_createDirectories_of_hasDirectory
    (h : p.components = [] ∨ t.hasDirectory p = true) :
    (createDirectories p : StateM FileTree _).run t = (.ok (), t) := by
  rw [createDirectories]
  cases hcount : p.components.length with
  | zero => rfl
  | succ n =>
    have hdirectory : t.hasDirectory p = true := by
      rcases h with hempty | hdirectory
      · rw [hempty] at hcount
        cases hcount
      · exact hdirectory
    obtain ⟨hlocate, hnode⟩ := hasDirectory_iff.1 hdirectory
    have hmake : t.makeDirectory p = .error .alreadyExists := by
      rw [makeDirectory_of_locateNew (locateNew_of_locate hlocate), hnode, if_neg nofun]
    have hcreate : (createDirectory p : StateM FileTree _).run t = (.error .alreadyExists, t) :=
      run_commit_of_error hmake
    rw [FileSystem.run_createFrom_of_ne hcreate nofun]
    show ((if t.hasDirectory p = true then .ok () else .error .alreadyExists :
      Except OsError Unit), t) = (.ok (), t)
    rw [if_pos hdirectory]

/-! ### Writing files -/

theorem grows_writeText (p : Path) (text : String) (t : FileTree) :
    Grows t ((writeText p text : StateM FileTree _).run t).2 := by
  rcases run_writeText_cases p text t with hsame | ⟨hnode, hset⟩
  · rw [hsame]
    exact .refl t
  · rw [hset]
    exact .set hnode (.text text)

/-- A file that was written can be read. -/
theorem read_of_writeText {text : String}
    (h : (writeText p text : StateM FileTree _).run t = (.ok (), t')) : t'.read p = .ok text := by
  have hgrows := grows_writeText p text t
  rw [h] at hgrows
  obtain ⟨hlocate, -, -⟩ := putFile_eq_ok (run_commit_eq_ok_iff.1 h)
  rw [read_eq_ok_iff, hgrows.target_eq]
  exact ⟨hgrows.locate hlocate, isLawful_view.node?_writeText h⟩

theorem setEntry_of_lookup {entries : List (Location × FileNode)} {node : FileNode}
    (h : entries.lookup l = some node) : setEntry l node entries = entries := by
  induction entries with
  | nil => cases h
  | cons entry rest ih =>
    obtain ⟨k, old⟩ := entry
    rw [setEntry]
    by_cases hk : k = l
    · subst hk
      rw [List.lookup_cons_self, Option.some_inj] at h
      rw [if_pos rfl, h]
    · rw [List.lookup_cons, beq_false_of_ne (Ne.symm hk)] at h
      rw [if_neg hk, ih h]

/-- **A file that is there is not changed by writing it.** -/
theorem run_writeText_of_read {text : String} (h : t.read p = .ok text) :
    (writeText p text : StateM FileTree _).run t = (.ok (), t) := by
  obtain ⟨hlocate, hnode⟩ := read_eq_ok_iff.1 h
  have hput : t.putFile p (.text text) = .ok (t.set (t.target p) (.text text)) := by
    rw [putFile_of_locate hlocate, hnode, if_neg nofun]
  have hsame : t.set (t.target p) (.text text) = t := by
    have hne : t.target p ≠ [] := ne_nil_of_node?_ne (by rw [hnode]; exact nofun)
    rw [node?, if_neg hne] at hnode
    rw [set, setEntry_of_lookup hnode]
  rw [hsame] at hput
  exact run_commit_eq_ok_iff.2 hput

end SchemaForge.FileTree
