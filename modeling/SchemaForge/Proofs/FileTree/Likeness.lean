import SchemaForge.Proofs.FileTree.Lawful
import SchemaForge.Proofs.Run.Outcome

/-!
# Trees that differ in their texts

Where directories are, and where files are, decides what becomes of every call but reading.  So a
program that reads nothing comes to the same on trees that differ in the texts of files only, and
leaves trees that do so again.

## Main definitions

* `FileTree.Alike` — directories and files are in the same places.
* `FileTree.Blind` — a computation does the same on trees that are alike.
* `Run.Blind` — the same of a run.

## Main results

* `FileTree.Blind.bind`, `Run.Blind.bind` — blind in every step is blind.
* `FileTree.blind_createDirectories`, `Run.blind_writeFiles` — making directories and writing
  files is blind.
-/

namespace SchemaForge

/-- Whether a node is a directory. -/
def FileNode.isDirectory : FileNode → Bool
  | directory => true
  | _ => false

namespace FileTree

open FileSystem (createDirectory createDirectories createFrom isDirectory isFile settle writeText)

/-- Directories and files are in the same places, whatever is in the files. -/
structure Alike (t t' : FileTree) : Prop where
  /-- Relative paths start from the same directory. -/
  current_eq : t'.current = t.current
  /-- Directories are in the same places, and so are files. -/
  node?_map (l : Location) :
    (t'.node? l).map FileNode.isDirectory = (t.node? l).map FileNode.isDirectory

variable {t t' : FileTree} {p : Path}

theorem hasFile_iff_map :
    t.hasFile p = true ↔ (t.nodeAt p).map FileNode.isDirectory = .ok false := by
  rw [hasFile]
  rcases t.nodeAt p with e | _ | text | bytes <;> simp [Except.map, FileNode.isDirectory]

theorem hasDirectory_iff_map :
    t.hasDirectory p = true ↔ (t.nodeAt p).map FileNode.isDirectory = .ok true := by
  rw [hasDirectory]
  rcases t.nodeAt p with e | _ | text | bytes <;> simp [Except.map, FileNode.isDirectory]

namespace Alike

theorem refl (t : FileTree) : Alike t t :=
  ⟨rfl, fun _ => rfl⟩

/-- What stands at a place of trees that are alike: nothing, a directory, or files. -/
theorem node?_cases (h : Alike t t') (l : Location) :
    (t.node? l = none ∧ t'.node? l = none) ∨
      (t.node? l = some .directory ∧ t'.node? l = some .directory) ∨
      ∃ node node', (t.node? l = some node ∧ node.isDirectory = false) ∧
        t'.node? l = some node' ∧ node'.isDirectory = false := by
  have hmap := h.node?_map l
  rcases ht : t.node? l with _ | _ | text | bytes <;>
    rcases ht' : t'.node? l with _ | _ | text' | bytes' <;>
    simp_all [FileNode.isDirectory]

theorem node?_eq_none_iff (h : Alike t t') {l : Location} :
    t'.node? l = none ↔ t.node? l = none := by
  rcases h.node?_cases l with ⟨ht, ht'⟩ | ⟨ht, ht'⟩ | ⟨node, node', ⟨ht, -⟩, ht', -⟩ <;>
    simp [ht, ht']

theorem node?_eq_directory_iff (h : Alike t t') {l : Location} :
    t'.node? l = some .directory ↔ t.node? l = some .directory := by
  rcases h.node?_cases l with ⟨ht, ht'⟩ | ⟨ht, ht'⟩ | ⟨node, node', ⟨ht, hfile⟩, ht', hfile'⟩
  · simp [ht, ht']
  · simp [ht, ht']
  · rw [ht, ht']
    constructor
    · rintro ⟨⟩
      cases hfile'
    · rintro ⟨⟩
      cases hfile

theorem target_eq (h : Alike t t') (p : Path) : t'.target p = t.target p := by
  rw [target, target, h.current_eq]

/-- What is put in the same place leaves trees alike. -/
theorem set (h : Alike t t') {l : Location} (hl : l ≠ []) (node : FileNode) :
    Alike (t.set l node) (t'.set l node) where
  current_eq := h.current_eq
  node?_map k := by
    by_cases hk : k = l
    · subst hk
      rw [node?_set_self t hl, node?_set_self t' hl]
    · rw [node?_set_of_ne t hk, node?_set_of_ne t' hk]
      exact h.node?_map k

/-- A tree is like itself with another text in a file. -/
theorem set_text {l : Location} {text : String} (h : t.node? l = some (.text text))
    (text' : String) : Alike t (t.set l (.text text')) where
  current_eq := rfl
  node?_map k := by
    by_cases hk : k = l
    · subst hk
      have hne : k ≠ [] := ne_nil_of_node?_ne (by rw [h]; exact nofun)
      rw [node?_set_self t hne, h]
      rfl
    · rw [node?_set_of_ne t hk]

/-! ### Walks -/

theorem walk_eq (h : Alike t t') (here : Location) (pieces : List (List Char)) :
    t'.walk here pieces = t.walk here pieces := by
  induction pieces generalizing here with
  | nil => rfl
  | cons piece rest ih =>
    rw [walk, walk]
    rcases h.node?_cases here with ⟨ht, ht'⟩ | ⟨ht, ht'⟩ | ⟨node, node', ⟨ht, hfile⟩, ht', hfile'⟩
    · rw [ht, ht']
    · rw [ht, ht']
      simp only [ih]
    · rw [ht, ht']
      cases node <;> cases hfile <;> cases node' <;> cases hfile' <;> rfl

theorem locatePieces_eq (h : Alike t t') (p : Path) (pieces : List (List Char)) :
    t'.locatePieces p pieces = t.locatePieces p pieces := by
  rw [locatePieces, locatePieces, h.current_eq, h.walk_eq]

theorem locate_eq (h : Alike t t') (p : Path) : t'.locate p = t.locate p :=
  h.locatePieces_eq p _

theorem locateNew_eq (h : Alike t t') (p : Path) : t'.locateNew p = t.locateNew p :=
  h.locatePieces_eq p _

/-- What stands at a path of trees that are alike. -/
theorem nodeAt_map (h : Alike t t') (p : Path) :
    (t'.nodeAt p).map FileNode.isDirectory = (t.nodeAt p).map FileNode.isDirectory := by
  rw [nodeAt, nodeAt, h.locate_eq]
  cases t.locate p with
  | error e => rfl
  | ok l =>
    dsimp only [bind, Except.bind]
    rcases h.node?_cases l with ⟨ht, ht'⟩ | ⟨ht, ht'⟩ | ⟨node, node', ⟨ht, hfile⟩, ht', hfile'⟩
    · rw [ht, ht']
    · rw [ht, ht']
    · rw [ht, ht']
      exact congrArg Except.ok (hfile'.trans hfile.symm)

theorem hasFile_eq (h : Alike t t') (p : Path) : t'.hasFile p = t.hasFile p := by
  rw [Bool.eq_iff_iff, hasFile_iff_map, hasFile_iff_map, h.nodeAt_map]

theorem hasDirectory_eq (h : Alike t t') (p : Path) : t'.hasDirectory p = t.hasDirectory p := by
  rw [Bool.eq_iff_iff, hasDirectory_iff_map, hasDirectory_iff_map, h.nodeAt_map]

end Alike

/-! ### Computations -/

/-- A computation comes to the same on trees that are alike, and leaves them alike. -/
def Blind {α : Type} (call : StateM FileTree α) : Prop :=
  ∀ t t', Alike t t' →
    (call.run t').1 = (call.run t).1 ∧ Alike (call.run t).2 (call.run t').2

theorem blind_pure {α : Type} (a : α) : Blind (pure a : StateM FileTree α) :=
  fun _ _ h => ⟨rfl, h⟩

theorem Blind.bind {α β : Type} {call : StateM FileTree α} {next : α → StateM FileTree β}
    (h : Blind call) (hnext : ∀ a, Blind (next a)) : Blind (call >>= next) := by
  intro t t' halike
  obtain ⟨hanswer, hleft⟩ := h t t' halike
  rw [StateT.run_bind, StateT.run_bind]
  show (((next (call.run t').1).run (call.run t').2).1 = ((next (call.run t).1).run _).1) ∧
    Alike ((next (call.run t).1).run _).2 ((next (call.run t').1).run _).2
  rw [hanswer]
  exact hnext _ _ _ hleft

/-- A call is blind that puts the same node in a place that only directories and files decide. -/
theorem blind_commit {call : FileTree → Except OsError FileTree} (place : FileTree → Location)
    (node : FileNode) (h : ∀ t t', Alike t t' →
      (∃ e, call t = .error e ∧ call t' = .error e) ∨
        (call t = .ok (t.set (place t) node) ∧ call t' = .ok (t'.set (place t) node) ∧
          place t ≠ [])) :
    Blind (commit call) := by
  intro t t' halike
  rcases h t t' halike with ⟨e, ht, ht'⟩ | ⟨ht, ht', hne⟩
  · rw [run_commit_of_error ht, run_commit_of_error ht']
    exact ⟨rfl, halike⟩
  · rw [run_commit_eq_ok_iff.2 ht, run_commit_eq_ok_iff.2 ht']
    exact ⟨rfl, halike.set hne node⟩

theorem blind_isFile (p : Path) : Blind (isFile p) :=
  fun _ _ h => ⟨h.hasFile_eq p, h⟩

theorem blind_isDirectory (p : Path) : Blind (isDirectory p) :=
  fun _ _ h => ⟨h.hasDirectory_eq p, h⟩

theorem blind_createDirectory (p : Path) : Blind (createDirectory p) := by
  refine blind_commit (fun t => t.target p) .directory fun t t' h => ?_
  cases hlocate : t.locateNew p with
  | error e =>
    have hlocate' := (h.locateNew_eq p).trans hlocate
    refine .inl ⟨e, ?_, ?_⟩
    · rw [makeDirectory, hlocate]
      rfl
    · rw [makeDirectory, hlocate']
      rfl
  | ok l =>
    obtain rfl := locateNew_eq_ok hlocate
    have hlocate' := (h.locateNew_eq p).trans hlocate
    rw [makeDirectory_of_locateNew hlocate, makeDirectory_of_locateNew hlocate']
    by_cases hnone : t.node? (t.target p) = none
    · have hne := ne_nil_of_node?_ne (node?_ne_of_eq_none hnone)
      exact .inr ⟨if_pos hnone, if_pos (h.node?_eq_none_iff.2 hnone), hne⟩
    · exact .inl ⟨_, if_neg hnone, if_neg (mt h.node?_eq_none_iff.1 hnone)⟩

theorem blind_writeText (p : Path) (text : String) : Blind (writeText p text) := by
  refine blind_commit (fun t => t.target p) (.text text) fun t t' h => ?_
  cases hlocate : t.locate p with
  | error e =>
    have hlocate' := (h.locate_eq p).trans hlocate
    refine .inl ⟨e, ?_, ?_⟩
    · rw [putFile, hlocate]
      rfl
    · rw [putFile, hlocate']
      rfl
  | ok l =>
    obtain rfl := locate_eq_ok hlocate
    have hlocate' := (h.locate_eq p).trans hlocate
    rw [putFile_of_locate hlocate, putFile_of_locate hlocate']
    by_cases hdirectory : t.node? (t.target p) = some .directory
    · exact .inl ⟨_, if_pos hdirectory, if_pos (h.node?_eq_directory_iff.2 hdirectory)⟩
    · refine .inr ⟨if_neg hdirectory, if_neg (mt h.node?_eq_directory_iff.1 hdirectory), ?_⟩
      exact ne_nil_of_node?_ne hdirectory

theorem blind_settle (p : Path) (outcome : Except OsError Unit) : Blind (settle p outcome) := by
  cases outcome with
  | ok _ => exact blind_pure _
  | error e => exact (blind_isDirectory p).bind fun _ => blind_pure _

theorem blind_createFrom (n : Nat) (p : Path) : Blind (createFrom n p) := by
  induction n generalizing p with
  | zero => exact blind_pure _
  | succ n ih =>
    rw [createFrom]
    refine (blind_createDirectory p).bind fun outcome => ?_
    split
    · split
      · exact blind_pure _
      · next parent _ =>
        refine (ih parent).bind fun outcome => ?_
        split
        · exact (blind_createDirectory p).bind fun _ => blind_settle p _
        · exact blind_pure _
    · exact blind_settle p _

/-- Making directories is blind. -/
theorem blind_createDirectories (p : Path) : Blind (createDirectories p) :=
  blind_createFrom _ p

end FileTree

namespace Run

open FileTree (Alike)

/-- A run comes to the same on trees that are alike, and leaves them alike. -/
def Blind {α : Type} (program : Run (StateM FileTree) α) : Prop :=
  ∀ t t', Alike t t' →
    (program.on t').1 = (program.on t).1 ∧ Alike (program.on t).2 (program.on t').2

theorem blind_pure {α : Type} (a : α) : Blind (pure a : Run (StateM FileTree) α) :=
  fun _ _ h => ⟨rfl, h⟩

theorem blind_throw {α : Type} (e : RunError) : Blind (throw e : Run (StateM FileTree) α) :=
  fun _ _ h => ⟨rfl, h⟩

theorem Blind.bind {α β : Type} {program : Run (StateM FileTree) α}
    {next : α → Run (StateM FileTree) β} (h : Blind program) (hnext : ∀ a, Blind (next a)) :
    Blind (program >>= next) := by
  intro t t' halike
  obtain ⟨houtcome, hleft⟩ := h t t' halike
  rcases ht : program.on t with ⟨outcome, t₁⟩
  rcases ht' : program.on t' with ⟨outcome', t₁'⟩
  rw [ht, ht'] at houtcome hleft
  obtain rfl : outcome' = outcome := houtcome
  cases outcome' with
  | error e =>
    rw [on_bind_of_error ht, on_bind_of_error ht']
    exact ⟨rfl, hleft⟩
  | ok a =>
    rw [on_bind_of_ok ht, on_bind_of_ok ht']
    exact hnext a t₁ t₁' hleft

theorem blind_liftM {α : Type} {call : StateM FileTree α} (h : FileTree.Blind call) :
    Blind (liftM call : Run (StateM FileTree) α) := by
  intro t t' halike
  obtain ⟨hanswer, hleft⟩ := h t t' halike
  rw [on_liftM (Prod.mk.eta (p := call.run t)).symm, on_liftM (Prod.mk.eta (p := call.run t')).symm]
  exact ⟨congrArg Except.ok hanswer, hleft⟩

theorem blind_orStop {α : Type} {cause : OsError → RunError}
    {call : StateM FileTree (Except OsError α)} (h : FileTree.Blind call) :
    Blind (orStop cause call) := by
  refine (blind_liftM h).bind fun outcome => ?_
  cases outcome with
  | ok a => exact blind_pure a
  | error e => exact blind_throw (cause e)

theorem blind_firstFile? (paths : List Path) :
    FileTree.Blind (firstFile? paths : StateM FileTree _) := by
  induction paths with
  | nil => exact FileTree.blind_pure none
  | cons p rest ih =>
    refine (FileTree.blind_isFile p).bind fun found => ?_
    cases found with
    | true => exact FileTree.blind_pure (some p)
    | false => exact ih

/-- Finding a schema is blind. -/
theorem blind_locate (root : Path) (given : Option Path) (candidates : List Path) :
    Blind (locate root given candidates) := by
  cases given with
  | some p =>
    refine (blind_liftM (FileTree.blind_isFile (root.resolve p))).bind fun found => ?_
    cases found with
    | true => exact blind_pure (root.resolve p)
    | false => exact blind_throw _
  | none =>
    refine (blind_liftM (blind_firstFile? (candidates.map root.resolve))).bind fun found => ?_
    cases found with
    | some path => exact blind_pure path
    | none => exact blind_throw _

/-- Writing files is blind. -/
theorem blind_writeFiles (files : List GeneratedFile) : Blind (writeFiles files) := by
  induction files with
  | nil => exact blind_pure ()
  | cons f rest ih =>
    refine Blind.bind ?_ fun _ => ih
    rw [writeFile]
    split
    · next parent _ =>
      refine (blind_orStop (FileTree.blind_createDirectories parent)).bind fun _ => ?_
      exact blind_orStop (FileTree.blind_writeText f.path f.content)
    · exact blind_orStop (FileTree.blind_writeText f.path f.content)

end Run

end SchemaForge
