import SchemaForge.Proofs.FileTree.Growth

/-!
# Rooted trees

Whatever stands somewhere in a file system stands in a directory, and calls keep it so.  What is at
the end of a path then tells what is on the way, as long as every `..` of the path leaves a
directory that is there.

## Main definitions

* `FileTree.IsRooted` — everything stands in a directory.
* `FileTree.Leaves` — every `..` on a way leaves a directory that is there.

## Main results

* `FileTree.IsRooted.createDirectory`, `FileTree.IsRooted.writeText` — **calls keep a tree rooted.**
* `FileTree.IsRooted.walk` — **a way that leads to a directory is there, if it is after growth.**
* `FileTree.leaves_of_hasDirectory` — a way to a directory that is there leaves nothing that is
  missing.
-/

namespace SchemaForge.FileTree

open FileSystem (createDirectory createDirectories writeText)

/-- Everything stands in a directory. -/
def IsRooted (t : FileTree) : Prop :=
  ∀ e ∈ t.entries, t.node? e.1.dropLast = some .directory

instance (t : FileTree) : Decidable t.IsRooted :=
  inferInstanceAs (Decidable (∀ e ∈ t.entries, t.node? e.1.dropLast = some .directory))

variable {t t' : FileTree} {p : Path} {l k here : Location}

namespace IsRooted

theorem node?_dropLast (h : t.IsRooted) (hl : t.node? l ≠ none) :
    t.node? l.dropLast = some .directory := by
  rw [node?] at hl
  split at hl
  · next hnil =>
    rw [hnil]
    rfl
  · obtain ⟨node, hnode⟩ := Option.ne_none_iff_exists'.1 hl
    obtain ⟨front, rest, hentries, -⟩ := List.lookup_eq_some_iff.1 hnode
    exact h (l, node) (hentries ▸ by simp)

theorem directory_of_child (h : t.IsRooted) {name : String}
    (hchild : t.node? (here ++ [name]) = some .directory) : t.node? here = some .directory := by
  have hhere := h.node?_dropLast (by rw [hchild]; exact nofun)
  rwa [List.dropLast_concat] at hhere

/-- Above what stands somewhere are directories. -/
theorem directory_of_isPrefix (h : t.IsRooted) (hl : t.node? l ≠ none) (hk : k <+: l)
    (hne : k ≠ l) : t.node? k = some .directory := by
  induction l using List.reverseRecOn with
  | nil => exact absurd (List.prefix_nil.1 hk) hne
  | append_singleton l name ih =>
    have habove := h.node?_dropLast hl
    rw [List.dropLast_concat] at habove
    rcases List.prefix_concat_iff.1 hk with heq | hk
    · exact absurd heq hne
    · by_cases heq : k = l
      · rw [heq, habove]
      · exact ih (by rw [habove]; exact nofun) hk heq

/-! ### Calls -/

theorem set (h : t.IsRooted) {node : FileNode} (hl : t.node? l ≠ some .directory)
    (habove : t.node? l.dropLast = some .directory) : (t.set l node).IsRooted := by
  have hgrows := Grows.set hl node
  have hentries : ∀ e ∈ setEntry l node t.entries, e ∈ t.entries ∨ e.1 = l := by
    generalize t.entries = entries
    induction entries with
    | nil => simp [setEntry]
    | cons e rest ih =>
      obtain ⟨k, old⟩ := e
      intro e he
      rw [setEntry] at he
      split at he
      · next hk =>
        rcases List.mem_cons.1 he with rfl | he
        · exact .inr hk
        · exact .inl (List.mem_cons_of_mem _ he)
      · rcases List.mem_cons.1 he with rfl | he
        · exact .inl (List.mem_cons_self ..)
        · exact (ih e he).imp_left (List.mem_cons_of_mem _)
  intro e he
  rcases hentries e he with he | heq
  · exact hgrows.node?_eq (h e he)
  · rw [heq]
    exact hgrows.node?_eq habove

/-- Where a walk ends, something may stand: there is a directory for it. -/
theorem node?_dropLast_of_walk (h : t.IsRooted) {pieces : List (List Char)}
    (hwalk : t.walk here pieces = .ok l) (hne : pieces ≠ []) :
    t.node? l.dropLast = some .directory := by
  have hdirectory {k : Location} (hk : t.node? k = some .directory) :
      t.node? k.dropLast = some .directory :=
    h.node?_dropLast (by rw [hk]; exact nofun)
  obtain ⟨front, last, rfl⟩ := (List.eq_nil_or_concat' pieces).resolve_left hne
  obtain ⟨l', -, hlast⟩ := walk_append_eq_ok_iff.1 hwalk
  have hl' := node?_of_walk_cons hlast
  rw [walk_cons_of_directory last [] hl'] at hlast
  split at hlast
  · cases hlast
    exact hdirectory hl'
  · split at hlast
    · cases hlast
      exact hdirectory (hdirectory hl')
    · split at hlast
      · cases hlast
      · cases hlast
        rwa [List.dropLast_concat]

/-- A relative path has a piece that is left without the slashes at its end. -/
theorem dropWhile_isEmpty_ne_nil {text : List Char} (hne : text ≠ [])
    (hrelative : text.head? ≠ some '/') :
    ((Path.splitSlash text).reverse.dropWhile List.isEmpty).reverse ≠ [] := by
  obtain ⟨c, text, rfl⟩ := List.exists_cons_of_ne_nil hne
  have hc : c ≠ '/' := by
    rintro rfl
    exact hrelative rfl
  obtain ⟨piece, pieces, hpieces⟩ := List.exists_cons_of_ne_nil (Path.splitSlash_ne_nil text)
  intro hnil
  rw [List.reverse_eq_nil_iff, List.dropWhile_eq_nil_iff] at hnil
  have hempty := hnil (c :: piece) (by simp [Path.splitSlash, hc, hpieces])
  cases hempty

/-- **Making a directory keeps a tree rooted.** -/
theorem createDirectory (h : t.IsRooted) (p : Path) :
    ((createDirectory p : StateM FileTree _).run t).2.IsRooted := by
  rcases run_commit_snd_cases (·.makeDirectory p) t with hsame | hmake
  · exact hsame.symm ▸ h
  obtain ⟨hlocate, hnone, hset⟩ := makeDirectory_eq_ok hmake
  have hne := ne_nil_of_node?_ne (node?_ne_of_eq_none hnone)
  refine hset.symm ▸ h.set (node?_ne_of_eq_none hnone) ?_
  have hwalk := walk_of_locatePieces hlocate
  by_cases hpieces :
      ((Path.splitSlash p.text.toList).reverse.dropWhile List.isEmpty).reverse = []
  case neg => exact h.node?_dropLast_of_walk hwalk hpieces
  -- nothing but slashes is left of the root only
  rw [hpieces] at hwalk
  by_cases habsolute : p.isAbsolute = true
  · rw [if_pos habsolute] at hwalk
    exact absurd (Except.ok.inj hwalk).symm hne
  · have htext : p.text.toList = [] := by
      by_contra hne
      exact dropWhile_isEmpty_ne_nil hne (by simpa [Path.isAbsolute] using habsolute) hpieces
    rw [locateNew, locatePieces, htext, String.isEmpty_iff.2 (String.toList_inj.1 htext)] at hlocate
    cases hlocate

theorem createDirectories (h : t.IsRooted) (p : Path) :
    ((createDirectories p : StateM FileTree _).run t).2.IsRooted :=
  FileSystem.run_createDirectories_invariant isLawful_view.isDirectory_state
    (fun q _ _ h => h.createDirectory q) h

/-- **Writing a file keeps a tree rooted.** -/
theorem writeText (h : t.IsRooted) (p : Path) (text : String) :
    ((writeText p text : StateM FileTree _).run t).2.IsRooted := by
  rcases run_commit_snd_cases (·.putFile p (.text text)) t with hsame | hput
  · exact hsame.symm ▸ h
  obtain ⟨hlocate, hnode, hset⟩ := putFile_eq_ok hput
  exact hset.symm ▸ h.set hnode
    (h.node?_dropLast_of_walk (walk_of_locatePieces hlocate) (Path.splitSlash_ne_nil _))

end IsRooted

/-! ### Ways -/

/-- Every `..` of a row of components, entered from a place, leaves a directory that is there. -/
def Leaves (t : FileTree) (here : Location) : List Component → Prop
  | [] => True
  | c :: cs => (c = .parent → t.node? here = some .directory) ∧ Leaves t (c.enter here) cs

instance decidableLeaves (t : FileTree) (here : Location) :
    (cs : List Component) → Decidable (t.Leaves here cs)
  | [] => inferInstanceAs (Decidable True)
  | c :: cs =>
    have := decidableLeaves t (c.enter here) cs
    inferInstanceAs (Decidable ((c = .parent → t.node? here = some .directory) ∧
      Leaves t (c.enter here) cs))

theorem leaves_append_iff {cs ds : List Component} :
    t.Leaves here (cs ++ ds) ↔
      t.Leaves here cs ∧ t.Leaves (cs.foldl Component.enter here) ds := by
  induction cs generalizing here with
  | nil => simp [Leaves]
  | cons c cs ih => rw [List.cons_append, Leaves, Leaves, ih, List.foldl_cons, and_assoc]

/-- Any other component than `..` leaves nothing. -/
theorem leaves_cons_of_ne {c : Component} {cs : List Component} (hc : c ≠ .parent) :
    t.Leaves here (c :: cs) ↔ t.Leaves (c.enter here) cs :=
  and_iff_right fun heq => absurd heq hc

/-- A way that can be walked leaves directories that are there. -/
theorem leaves_of_walk {pieces : List (List Char)} (h : t.walk here pieces = .ok l) :
    t.Leaves here (pieces.filterMap Path.pieceComponent?) := by
  induction pieces generalizing here with
  | nil => trivial
  | cons piece rest ih =>
    have hhere := node?_of_walk_cons h
    rw [walk_cons_of_directory piece rest hhere] at h
    rw [List.filterMap_cons, Path.pieceComponent?]
    split at h
    · next hnothing =>
      rw [if_pos hnothing]
      exact ih h
    · next hnothing =>
      rw [if_neg hnothing]
      split at h
      · next hparent =>
        rw [if_pos hparent]
        exact ⟨fun _ => hhere, ih h⟩
      · next hparent =>
        rw [if_neg hparent]
        split at h
        · cases h
        · exact (leaves_cons_of_ne (by simp)).2 (ih h)

/-- The first component of a path leads where a walk starts, and leaves nothing. -/
theorem leaves_components_iff (t : FileTree) (p : Path) :
    t.Leaves t.current p.components ↔
      t.Leaves (if p.isAbsolute then [] else t.current)
        ((Path.splitSlash p.text.toList).filterMap Path.pieceComponent?) := by
  rw [Path.components, leaves_append_iff]
  by_cases habsolute : p.isAbsolute = true
  · rw [if_pos habsolute, if_pos habsolute]
    exact and_iff_right ((leaves_cons_of_ne (by simp)).2 trivial)
  · rw [if_neg habsolute, if_neg habsolute]
    split
    · exact and_iff_right ((leaves_cons_of_ne (by simp)).2 trivial)
    · exact and_iff_right trivial

/-- **A way that leads to a directory is there, if it is after growth** and leaves no directory that
is not: what it leads through is above what it leads to, or is left. -/
theorem IsRooted.walk (h : t.IsRooted) {pieces : List (List Char)}
    (hleaves : t.Leaves here (pieces.filterMap Path.pieceComponent?))
    (hwalk : t'.walk here pieces = .ok l) (hl : t.node? l = some .directory) :
    t.walk here pieces = .ok l ∧ t.node? here = some .directory := by
  induction pieces generalizing here with
  | nil =>
    cases hwalk
    exact ⟨rfl, hl⟩
  | cons piece rest ih =>
    rw [walk_cons_of_directory piece rest (node?_of_walk_cons hwalk)] at hwalk
    rw [List.filterMap_cons, Path.pieceComponent?] at hleaves
    split at hwalk
    · next hnothing =>
      rw [if_pos hnothing] at hleaves
      obtain ⟨hrest, hhere⟩ := ih hleaves hwalk
      rw [walk_cons_of_directory piece rest hhere, if_pos hnothing]
      exact ⟨hrest, hhere⟩
    · next hnothing =>
      rw [if_neg hnothing] at hleaves
      split at hwalk
      · next hparent =>
        rw [if_pos hparent] at hleaves
        have hhere := hleaves.1 rfl
        rw [walk_cons_of_directory piece rest hhere, if_neg hnothing, if_pos hparent]
        exact ⟨(ih hleaves.2 hwalk).1, hhere⟩
      · next hparent =>
        rw [if_neg hparent] at hleaves
        split at hwalk
        · cases hwalk
        · next hshort =>
          obtain ⟨hrest, hnext⟩ := ih hleaves.2 hwalk
          have hhere := h.directory_of_child hnext
          rw [walk_cons_of_directory piece rest hhere, if_neg hnothing, if_neg hparent,
            if_neg hshort]
          exact ⟨hrest, hhere⟩

/-- A way goes down from a place, or the place is a directory that is there. -/
theorem IsRooted.directory_or_isPrefix (h : t.IsRooted) {cs : List Component}
    (hleaves : t.Leaves here cs) (hroot : .root ∉ cs) :
    t.node? here = some .directory ∨ here <+: cs.foldl Component.enter here := by
  induction cs generalizing here with
  | nil => exact .inr List.prefix_rfl
  | cons c cs ih =>
    rw [List.mem_cons, not_or] at hroot
    have hrest := ih hleaves.2 hroot.2
    cases c with
    | root => exact absurd rfl hroot.1
    | current => exact hrest
    | parent => exact .inl (hleaves.1 rfl)
    | name n =>
      rcases hrest with hnext | hprefix
      · exact .inl (h.directory_of_child hnext)
      · exact .inr ((List.prefix_append here [n]).trans hprefix)

/-- A directory at the end of a path is found, if it is after growth. -/
theorem IsRooted.hasDirectory (h : t.IsRooted) (hgrows : Grows t t')
    (hleaves : t.Leaves t.current p.components) (hfound : t'.hasDirectory p = true)
    (hthere : t.node? (t.target p) = some .directory) : t.hasDirectory p = true := by
  obtain ⟨hlocate, -⟩ := hasDirectory_iff.1 hfound
  have hwalk := walk_of_locatePieces hlocate
  rw [hgrows.target_eq, hgrows.current_eq] at hwalk
  obtain ⟨hway, -⟩ := h.walk ((leaves_components_iff t p).1 hleaves) hwalk hthere
  exact hasDirectory_iff.2 ⟨locatePieces_of_walk hlocate hway, hthere⟩

/-- The way to a directory that is found leaves directories that are there. -/
theorem leaves_of_hasDirectory (h : t.hasDirectory p = true) :
    t.Leaves t.current p.components := by
  obtain ⟨hlocate, -⟩ := hasDirectory_iff.1 h
  exact (leaves_components_iff t p).2 (leaves_of_walk (walk_of_locatePieces hlocate))

end SchemaForge.FileTree
