import SchemaForge.FileTree
import SchemaForge.Proofs.Path

/-!
# What calls do to a file system

Proofs about runs need little of a file system: questions leave it as it is, making a directory
does nothing else, and writing a file changes no other.  A view says what stands where, so that
this can be said of any file system.

## Main definitions

* `FileSystem.View` — the places of a file system, and what stands there.
* `FileSystem.View.IsLawful` — what the calls may do there.
* `FileSystem.View.Frame` — nothing changes but given places, and places for new directories.

## Main results

* `FileSystem.run_createFrom_invariant` — what making one directory keeps, making a row of them
  keeps.
* `FileSystem.View.IsLawful.frame_createDirectories` — making a directory with all that are
  missing above it only makes directories.
-/

namespace SchemaForge.FileSystem

variable {σ : Type}

/-- A way to look at a file system: the places that paths lead to, and what stands there. -/
structure View (σ : Type) where
  /-- The places. -/
  Place : Type
  /-- The place that a path leads to, where nothing needs to stand. -/
  place : σ → Path → Place
  /-- What stands at a place. -/
  node? : σ → Place → Option FileNode

namespace View

/-- The calls of a file system do what they are for. -/
structure IsLawful [FileSystem (StateM σ)] (v : View σ) : Prop where
  /-- Asking for a file changes nothing. -/
  isFile_state (p : Path) (fs : σ) : ((isFile p : StateM σ Bool).run fs).2 = fs
  /-- Asking for a directory changes nothing. -/
  isDirectory_state (p : Path) (fs : σ) : ((isDirectory p : StateM σ Bool).run fs).2 = fs
  /-- Reading changes nothing. -/
  readText_state (p : Path) (fs : σ) : ((readText p : StateM σ _).run fs).2 = fs
  /-- Making a directory leads no path elsewhere. -/
  place_createDirectory (p : Path) (fs : σ) :
    v.place ((createDirectory p : StateM σ _).run fs).2 = v.place fs
  /-- Making a directory puts one where there was nothing, and changes nothing else. -/
  node?_createDirectory (p : Path) (fs : σ) (l : v.Place) :
    v.node? ((createDirectory p : StateM σ _).run fs).2 l = v.node? fs l ∨
      l = v.place fs p ∧ v.node? fs l = none ∧
        v.node? ((createDirectory p : StateM σ _).run fs).2 l = some .directory
  /-- Writing leads no path elsewhere. -/
  place_writeText (p : Path) (text : String) (fs : σ) :
    v.place ((writeText p text : StateM σ _).run fs).2 = v.place fs
  /-- Writing changes no other place, whether or not it succeeds. -/
  node?_writeText_of_ne (p : Path) (text : String) (fs : σ) {l : v.Place} (h : l ≠ v.place fs p) :
    v.node? ((writeText p text : StateM σ _).run fs).2 l = v.node? fs l
  /-- What was written with success is there. -/
  node?_writeText {p : Path} {text : String} {fs fs' : σ}
    (h : (writeText p text : StateM σ _).run fs = (.ok (), fs')) :
    v.node? fs' (v.place fs p) = some (.text text)
  /-- Paths that end in different names lead to different places. -/
  place_ne (fs : σ) {p q : Path} (h : p.NamedApart q) : v.place fs p ≠ v.place fs q

/-! ### Frames -/

/-- Nothing changes but what is written, and places where a directory is made. -/
structure Frame (v : View σ) (written made : Set v.Place) (fs fs' : σ) : Prop where
  /-- Paths lead where they led. -/
  place_eq : v.place fs' = v.place fs
  /-- What stands elsewhere is as before. -/
  node?_eq (l : v.Place) : v.node? fs' l = v.node? fs l ∨ l ∈ written ∨
    l ∈ made ∧ v.node? fs l = none ∧ v.node? fs' l = some .directory

namespace Frame

variable {v : View σ} {written written' made made' : Set v.Place} {fs fs₁ fs' : σ}

theorem refl (fs : σ) : v.Frame written made fs fs where
  place_eq := rfl
  node?_eq _ := .inl rfl

theorem mono (h : v.Frame written made fs fs') (hwritten : written ⊆ written')
    (hmade : made ⊆ made') : v.Frame written' made' fs fs' where
  place_eq := h.place_eq
  node?_eq l := by
    rcases h.node?_eq l with heq | hl | ⟨hl, hnone, hdirectory⟩
    · exact .inl heq
    · exact .inr (.inl (hwritten hl))
    · exact .inr (.inr ⟨hmade hl, hnone, hdirectory⟩)

/-- A directory that was made stays unless it is written over. -/
theorem trans (h : v.Frame written made fs fs₁) (h' : v.Frame written made fs₁ fs') :
    v.Frame written made fs fs' where
  place_eq := h'.place_eq.trans h.place_eq
  node?_eq l := by
    rcases h.node?_eq l with heq | hl | ⟨hl, hnone, hdirectory⟩
    · rw [← heq]
      exact h'.node?_eq l
    · exact .inr (.inl hl)
    · rcases h'.node?_eq l with heq' | hl' | ⟨-, hnone', -⟩
      · exact .inr (.inr ⟨hl, hnone, heq'.trans hdirectory⟩)
      · exact .inr (.inl hl')
      · rw [hdirectory] at hnone'
        cases hnone'

/-- What stands somewhere stays unless it is written over. -/
theorem node?_eq_some (h : v.Frame written made fs fs') {l : v.Place} {node : FileNode}
    (hnode : v.node? fs l = some node) (hl : l ∉ written) : v.node? fs' l = some node := by
  rcases h.node?_eq l with heq | hwritten | ⟨-, hnone, -⟩
  · rw [heq, hnode]
  · exact absurd hwritten hl
  · rw [hnode] at hnone
    cases hnone

end Frame

end View

/-! ### Making directories -/

section

variable [FileSystem (StateM σ)] {p parent : Path} {n : Nat} {outcome : Except OsError Unit}
  {fs fs' fs₁ fs₂ fs₃ : σ}

/-- A directory that can be made, or cannot be for another reason than that one above is missing,
needs nothing else. -/
theorem run_createFrom_of_ne (h : (createDirectory p : StateM σ _).run fs = (outcome, fs₁))
    (hne : outcome ≠ .error .notFound) :
    (createFrom (n + 1) p : StateM σ _).run fs = (settle p outcome : StateM σ _).run fs₁ := by
  rw [createFrom, StateT.run_bind, h]
  cases outcome with
  | ok _ => rfl
  | error e =>
    cases e with
    | notFound => exact absurd rfl hne
    | _ => rfl

theorem run_createFrom_of_parent?_eq_none
    (h : (createDirectory p : StateM σ _).run fs = (.error .notFound, fs₁))
    (hparent : p.parent? = none) :
    (createFrom (n + 1) p : StateM σ _).run fs =
      (.error (.other "failed to create whole tree"), fs₁) := by
  rw [createFrom, hparent, StateT.run_bind, h]
  rfl

theorem run_createFrom_of_error
    (h : (createDirectory p : StateM σ _).run fs = (.error .notFound, fs₁))
    (hparent : p.parent? = some parent) {e : OsError}
    (habove : (createFrom n parent : StateM σ _).run fs₁ = (.error e, fs₂)) :
    (createFrom (n + 1) p : StateM σ _).run fs = (.error e, fs₂) := by
  rw [createFrom, hparent, StateT.run_bind, h]
  show (createFrom n parent >>= _ : StateM σ _).run fs₁ = _
  rw [StateT.run_bind, habove]
  rfl

theorem run_createFrom_of_ok
    (h : (createDirectory p : StateM σ _).run fs = (.error .notFound, fs₁))
    (hparent : p.parent? = some parent)
    (habove : (createFrom n parent : StateM σ _).run fs₁ = (.ok (), fs₂))
    (hagain : (createDirectory p : StateM σ _).run fs₂ = (outcome, fs₃)) :
    (createFrom (n + 1) p : StateM σ _).run fs = (settle p outcome : StateM σ _).run fs₃ := by
  rw [createFrom, hparent, StateT.run_bind, h]
  show (createFrom n parent >>= _ : StateM σ _).run fs₁ = _
  rw [StateT.run_bind, habove]
  show (createDirectory p >>= _ : StateM σ _).run fs₂ = _
  rw [StateT.run_bind, hagain]
  rfl

/-- Making directories settles on what is there. -/
theorem run_settle_snd (hdirectory : ∀ p fs, ((isDirectory p : StateM σ Bool).run fs).2 = fs)
    (p : Path) (outcome : Except OsError Unit) (fs : σ) :
    ((settle p outcome : StateM σ _).run fs).2 = fs := by
  cases outcome with
  | ok _ => rfl
  | error e => exact hdirectory p fs

/-- What making one directory keeps, at a path or above it, is kept by making it with all that are
missing above it. -/
theorem run_createFrom_invariant
    (hdirectory : ∀ p fs, ((isDirectory p : StateM σ Bool).run fs).2 = fs) {I : σ → Prop}
    (hstep : ∀ q, q = p ∨ q.Above p → ∀ fs, I fs → I ((createDirectory q : StateM σ _).run fs).2)
    (n : Nat) (h : I fs) : I ((createFrom n p : StateM σ _).run fs).2 := by
  induction n generalizing p fs with
  | zero => exact h
  | succ n ih =>
    have hfirst := hstep p (.inl rfl) fs h
    rcases hcreate : (createDirectory p : StateM σ _).run fs with ⟨outcome, fs₁⟩
    rw [hcreate] at hfirst
    by_cases hmissing : outcome = .error .notFound
    case neg =>
      rw [run_createFrom_of_ne hcreate hmissing, run_settle_snd hdirectory]
      exact hfirst
    subst hmissing
    cases hparent : p.parent? with
    | none =>
      rw [run_createFrom_of_parent?_eq_none hcreate hparent]
      exact hfirst
    | some parent =>
      have hsecond : I ((createFrom n parent : StateM σ _).run fs₁).2 := by
        refine ih ?_ hfirst
        rintro q (rfl | hq)
        · exact hstep q (.inr (.parent hparent))
        · exact hstep q (.inr (.above hparent hq))
      rcases hcreateAbove : (createFrom n parent : StateM σ _).run fs₁ with ⟨_ | ⟨⟩, fs₂⟩
      · rw [run_createFrom_of_error hcreate hparent hcreateAbove]
        rw [hcreateAbove] at hsecond
        exact hsecond
      · rw [hcreateAbove] at hsecond
        have hthird := hstep p (.inl rfl) fs₂ hsecond
        rcases hagain : (createDirectory p : StateM σ _).run fs₂ with ⟨outcome, fs₃⟩
        rw [hagain] at hthird
        rw [run_createFrom_of_ok hcreate hparent hcreateAbove hagain, run_settle_snd hdirectory]
        exact hthird

/-- A directory that is made was tried last, and settled on. -/
theorem exists_settle_of_run_createFrom
    (h : (createFrom (n + 1) p : StateM σ _).run fs = (.ok (), fs')) :
    ∃ fs₁ outcome fs₂, (createDirectory p : StateM σ _).run fs₁ = (outcome, fs₂) ∧
      (settle p outcome : StateM σ _).run fs₂ = (.ok (), fs') := by
  rcases hcreate : (createDirectory p : StateM σ _).run fs with ⟨outcome, fs₁⟩
  by_cases hmissing : outcome = .error .notFound
  case neg =>
    rw [run_createFrom_of_ne hcreate hmissing] at h
    exact ⟨fs, outcome, fs₁, hcreate, h⟩
  subst hmissing
  cases hparent : p.parent? with
  | none =>
    rw [run_createFrom_of_parent?_eq_none hcreate hparent] at h
    cases h
  | some parent =>
    rcases hcreateAbove : (createFrom n parent : StateM σ _).run fs₁ with ⟨_ | ⟨⟩, fs₂⟩
    · rw [run_createFrom_of_error hcreate hparent hcreateAbove] at h
      cases h
    · rcases hagain : (createDirectory p : StateM σ _).run fs₂ with ⟨outcome, fs₃⟩
      rw [run_createFrom_of_ok hcreate hparent hcreateAbove hagain] at h
      exact ⟨fs₂, outcome, fs₃, hagain, h⟩

theorem run_createDirectories_invariant
    (hdirectory : ∀ p fs, ((isDirectory p : StateM σ Bool).run fs).2 = fs) {I : σ → Prop}
    (hstep : ∀ q, q = p ∨ q.Above p → ∀ fs, I fs → I ((createDirectory q : StateM σ _).run fs).2)
    (h : I fs) : I ((createDirectories p : StateM σ _).run fs).2 :=
  run_createFrom_invariant hdirectory hstep p.components.length h

end

namespace View.IsLawful

variable [FileSystem (StateM σ)] {v : View σ}

theorem frame_createDirectory (hv : v.IsLawful) (p : Path) (fs : σ) {made : Set v.Place}
    (hp : v.place fs p ∈ made) :
    v.Frame ∅ made fs ((createDirectory p : StateM σ _).run fs).2 where
  place_eq := hv.place_createDirectory p fs
  node?_eq l := by
    rcases hv.node?_createDirectory p fs l with heq | ⟨rfl, hnone, hdirectory⟩
    · exact .inl heq
    · exact .inr (.inr ⟨hp, hnone, hdirectory⟩)

/-- **Making a directory with all that are missing above it only makes directories**, and those at
the path and above it. -/
theorem frame_createDirectories (hv : v.IsLawful) (p : Path) (fs : σ) {made : Set v.Place}
    (hp : v.place fs p ∈ made) (habove : ∀ q, q.Above p → v.place fs q ∈ made) :
    v.Frame ∅ made fs ((createDirectories p : StateM σ _).run fs).2 := by
  refine run_createDirectories_invariant hv.isDirectory_state (I := v.Frame ∅ made fs) ?_ (.refl fs)
  intro q hq fs₁ hframe
  have hqPlace : v.place fs₁ q ∈ made := by
    rw [hframe.place_eq]
    rcases hq with rfl | hq
    · exact hp
    · exact habove q hq
  exact hframe.trans (hv.frame_createDirectory q fs₁ hqPlace)

theorem frame_writeText (hv : v.IsLawful) (p : Path) (text : String) (fs : σ)
    {made : Set v.Place} :
    v.Frame {v.place fs p} made fs ((writeText p text : StateM σ _).run fs).2 where
  place_eq := hv.place_writeText p text fs
  node?_eq l := by
    by_cases hl : l = v.place fs p
    · exact .inr (.inl hl)
    · exact .inl (hv.node?_writeText_of_ne p text fs hl)

end View.IsLawful

end SchemaForge.FileSystem
