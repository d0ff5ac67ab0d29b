import SchemaForge.Proofs.FileSystem

/-!
# The file system in memory

A tree has no links, so a path leads to one place whatever stands on the way: its components are
entered one by one.  A walk that succeeds ends there.

## Main definitions

* `Component.enter`, `FileTree.target` — where a path leads.
* `FileTree.view` — places are rows of names.

## Main results

* `FileTree.run_createDirectory_cases`, `FileTree.run_writeText_cases` — what calls do to a tree.
* `FileTree.isLawful_view` — **the calls of a tree do what they are for.**
-/

namespace SchemaForge

/-- Where a component leads from a place. -/
def Component.enter (here : Location) : Component → Location
  | .root => []
  | .current => here
  | .parent => here.dropLast
  | .name n => here ++ [n]

namespace FileTree

open FileSystem (createDirectory writeText)

/-- Where a path leads. -/
def target (t : FileTree) (p : Path) : Location :=
  p.components.foldl Component.enter t.current

/-- Places are rows of names. -/
def view : FileSystem.View FileTree where
  Place := Location
  place := target
  node? := node?

/-! ### Walks -/

theorem walk_cons_of_directory {t : FileTree} {here : Location} (piece : List Char)
    (rest : List (List Char)) (h : t.node? here = some .directory) :
    t.walk here (piece :: rest) =
      if piece = [] ∨ piece = ['.'] then t.walk here rest
      else if piece = ['.', '.'] then t.walk here.dropLast rest
      else if nameLimit < (String.ofList piece).utf8ByteSize then .error .nameTooLong
      else t.walk (here ++ [String.ofList piece]) rest := by
  rw [walk, h]

/-- What is walked through is a directory. -/
theorem node?_of_walk_cons {t : FileTree} {here l : Location} {piece : List Char}
    {rest : List (List Char)} (h : t.walk here (piece :: rest) = .ok l) :
    t.node? here = some .directory := by
  rw [walk] at h
  split at h
  · cases h
  · assumption
  · cases h

/-- A walk ends where its components lead. -/
theorem walk_eq_ok {t : FileTree} {here l : Location} {pieces : List (List Char)}
    (h : t.walk here pieces = .ok l) :
    l = (pieces.filterMap Path.pieceComponent?).foldl Component.enter here := by
  induction pieces generalizing here with
  | nil =>
    cases h
    rfl
  | cons piece rest ih =>
    rw [walk_cons_of_directory piece rest (node?_of_walk_cons h)] at h
    rw [List.filterMap_cons, Path.pieceComponent?]
    split at h
    · next hnothing =>
      rw [if_pos hnothing]
      exact ih h
    · next hnothing =>
      rw [if_neg hnothing]
      split at h
      · next hparent =>
        rw [if_pos hparent]
        exact ih h
      · next hparent =>
        rw [if_neg hparent]
        split at h
        · cases h
        · exact ih h

/-- The first component leads where a walk starts. -/
theorem target_eq (t : FileTree) (p : Path) :
    t.target p =
      ((Path.splitSlash p.text.toList).filterMap Path.pieceComponent?).foldl Component.enter
        (if p.isAbsolute then [] else t.current) := by
  rw [target, Path.components, List.foldl_append]
  congr 1
  by_cases habsolute : p.isAbsolute = true
  · rw [if_pos habsolute, if_pos habsolute]
    rfl
  · rw [if_neg habsolute, if_neg habsolute]
    split <;> rfl

theorem walk_of_locatePieces {t : FileTree} {p : Path} {pieces : List (List Char)} {l : Location}
    (h : t.locatePieces p pieces = .ok l) :
    t.walk (if p.isAbsolute then [] else t.current) pieces = .ok l := by
  rw [locatePieces] at h
  split at h
  · cases h
  · split at h
    · cases h
    · split at h
      · cases h
      · exact h

/-- A path is located where it leads. -/
theorem locate_eq_ok {t : FileTree} {p : Path} {l : Location} (h : t.locate p = .ok l) :
    l = t.target p := by
  rw [target_eq]
  exact walk_eq_ok (walk_of_locatePieces h)

/-- Pieces without the empty ones at their end: what a slash at the end of a path adds. -/
theorem exists_append_eq_dropWhile_isEmpty (pieces : List (List Char)) :
    ∃ empty, pieces = (pieces.reverse.dropWhile List.isEmpty).reverse ++ empty ∧
      ∀ piece ∈ empty, piece = [] := by
  refine ⟨(pieces.reverse.takeWhile List.isEmpty).reverse, ?_, ?_⟩
  · rw [← List.reverse_append, List.takeWhile_append_dropWhile, List.reverse_reverse]
  · intro piece hpiece
    exact List.isEmpty_iff.1 (List.mem_takeWhile_imp (List.mem_reverse.1 hpiece))

/-- A directory to be made is located where its path leads. -/
theorem locateNew_eq_ok {t : FileTree} {p : Path} {l : Location} (h : t.locateNew p = .ok l) :
    l = t.target p := by
  obtain ⟨empty, hpieces, hempty⟩ :=
    exists_append_eq_dropWhile_isEmpty (Path.splitSlash p.text.toList)
  have hnothing : empty.filterMap Path.pieceComponent? = [] := by
    rw [List.filterMap_eq_nil_iff]
    intro piece hpiece
    rw [hempty piece hpiece]
    rfl
  rw [target_eq, hpieces, List.filterMap_append, hnothing, List.append_nil]
  exact walk_eq_ok (walk_of_locatePieces h)

/-! ### Calls -/

section

variable {t t' : FileTree} {p : Path} {l : Location}

theorem makeDirectory_of_locateNew (h : t.locateNew p = .ok l) :
    t.makeDirectory p =
      if t.node? l = none then .ok (t.set l .directory) else .error .alreadyExists := by
  rw [makeDirectory, h]
  dsimp only [bind, Except.bind]
  cases t.node? l with
  | none => rfl
  | some node => rfl

theorem putFile_of_locate (h : t.locate p = .ok l) (node : FileNode) :
    t.putFile p node =
      if t.node? l = some .directory then .error .isDirectory else .ok (t.set l node) := by
  rw [putFile, h]
  dsimp only [bind, Except.bind]
  split
  · next hnode => rw [hnode, if_pos rfl]
  · next hnode => rw [if_neg hnode]; rfl

/-- A directory is made where there is nothing. -/
theorem makeDirectory_eq_ok (h : t.makeDirectory p = .ok t') :
    t.locateNew p = .ok (t.target p) ∧ t.node? (t.target p) = none ∧
      t' = t.set (t.target p) .directory := by
  cases hlocate : t.locateNew p with
  | error e =>
    rw [makeDirectory, hlocate] at h
    cases h
  | ok l =>
    obtain rfl := locateNew_eq_ok hlocate
    rw [makeDirectory_of_locateNew hlocate] at h
    split at h
    · next hnode =>
      cases h
      exact ⟨rfl, hnode, rfl⟩
    · cases h

/-- A file is put where there is no directory. -/
theorem putFile_eq_ok {node : FileNode} (h : t.putFile p node = .ok t') :
    t.locate p = .ok (t.target p) ∧ t.node? (t.target p) ≠ some .directory ∧
      t' = t.set (t.target p) node := by
  cases hlocate : t.locate p with
  | error e =>
    rw [putFile, hlocate] at h
    cases h
  | ok l =>
    obtain rfl := locate_eq_ok hlocate
    rw [putFile_of_locate hlocate] at h
    split at h
    · cases h
    · next hnode =>
      cases h
      exact ⟨rfl, hnode, rfl⟩

theorem run_commit_of_error {call : FileTree → Except OsError FileTree} {e : OsError}
    (h : call t = .error e) : (commit call).run t = (.error e, t) := by
  show commit call t = _
  rw [commit, h]

/-- A call succeeds with what it makes of the tree. -/
theorem run_commit_eq_ok_iff {call : FileTree → Except OsError FileTree} :
    (commit call).run t = (.ok (), t') ↔ call t = .ok t' := by
  show commit call t = _ ↔ _
  rw [commit]
  cases call t with
  | error e =>
    constructor
    · intro h
      cases h
    · intro h
      cases h
  | ok t₁ =>
    constructor
    · rintro ⟨⟩
      rfl
    · rintro ⟨⟩
      rfl

/-- A call leaves the tree as it is, or makes another of it. -/
theorem run_commit_snd_cases (call : FileTree → Except OsError FileTree) (t : FileTree) :
    ((commit call).run t).2 = t ∨ call t = .ok ((commit call).run t).2 := by
  cases hcall : call t with
  | error e =>
    rw [run_commit_of_error hcall]
    exact .inl rfl
  | ok t' =>
    rw [run_commit_eq_ok_iff.2 hcall]
    exact .inr rfl

/-- The root is a directory. -/
theorem ne_nil_of_node?_ne (h : t.node? l ≠ some .directory) : l ≠ [] := by
  rintro rfl
  exact h rfl

theorem node?_ne_of_eq_none (h : t.node? l = none) : t.node? l ≠ some .directory := by
  rw [h]
  exact nofun

/-- **What making a directory does to a tree.** -/
theorem run_createDirectory_cases (p : Path) (t : FileTree) :
    ((createDirectory p : StateM FileTree _).run t).2 = t ∨
      t.node? (t.target p) = none ∧
        ((createDirectory p : StateM FileTree _).run t).2 = t.set (t.target p) .directory := by
  rcases run_commit_snd_cases (·.makeDirectory p) t with hsame | hmake
  · exact .inl hsame
  · exact .inr (makeDirectory_eq_ok hmake).2

/-- **What writing a file does to a tree.** -/
theorem run_writeText_cases (p : Path) (text : String) (t : FileTree) :
    ((writeText p text : StateM FileTree _).run t).2 = t ∨
      t.node? (t.target p) ≠ some .directory ∧
        ((writeText p text : StateM FileTree _).run t).2 = t.set (t.target p) (.text text) := by
  rcases run_commit_snd_cases (·.putFile p (.text text)) t with hsame | hput
  · exact .inl hsame
  · exact .inr (putFile_eq_ok hput).2

end

/-- Paths that end in different names lead to different places. -/
theorem target_ne (t : FileTree) {p q : Path} (h : p.NamedApart q) : t.target p ≠ t.target q := by
  obtain ⟨name, name', hp, hq, hne⟩ := h
  obtain ⟨above, hp⟩ := Path.name?_eq_some_iff.1 hp
  obtain ⟨above', hq⟩ := Path.name?_eq_some_iff.1 hq
  rw [target, target, hp, hq, List.foldl_append, List.foldl_append]
  intro heq
  have hlast := (List.append_inj' heq rfl).2
  exact hne (List.cons.inj hlast).1

/-- **The calls of a tree do what they are for.** -/
theorem isLawful_view : view.IsLawful where
  isFile_state _ _ := rfl
  isDirectory_state _ _ := rfl
  readText_state _ _ := rfl
  place_createDirectory p t := by
    rcases run_createDirectory_cases p t with hsame | ⟨-, hset⟩
    · rw [hsame]
    · rw [hset]
      rfl
  node?_createDirectory p t l := by
    rcases run_createDirectory_cases p t with hsame | ⟨hnone, hset⟩
    · rw [hsame]
      exact .inl rfl
    · rw [hset]
      by_cases hl : l = t.target p
      · subst hl
        have hne := ne_nil_of_node?_ne (node?_ne_of_eq_none hnone)
        exact .inr ⟨rfl, hnone, node?_set_self t hne .directory⟩
      · exact .inl (node?_set_of_ne t hl .directory)
  place_writeText p text t := by
    rcases run_writeText_cases p text t with hsame | ⟨-, hset⟩
    · rw [hsame]
    · rw [hset]
      rfl
  node?_writeText_of_ne p text t l hl := by
    rcases run_writeText_cases p text t with hsame | ⟨-, hset⟩
    · rw [hsame]
    · rw [hset]
      exact node?_set_of_ne t hl (.text text)
  node?_writeText {p text t t'} h := by
    obtain ⟨-, hnode, rfl⟩ := putFile_eq_ok (run_commit_eq_ok_iff.1 h)
    exact node?_set_self t (ne_nil_of_node?_ne hnode) (.text text)
  place_ne t _ _ h := target_ne t h

end FileTree

end SchemaForge
