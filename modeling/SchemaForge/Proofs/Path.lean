import Mathlib
import SchemaForge.Path

/-!
# What paths mean

A path means its row of components.  A name below a path is one more component, however the path
ends, and the parent of a path has one component less.

## Main definitions

* `Path.componentsOf` — the components of a path's text.
* `Path.IsName` — a text that is one name below any path.
* `Path.IsBelow` — a path that adds its components to those of any path.
* `Path.name?` — the name that a path ends in.
* `Path.Above` — the parent of a path and what is above it.

## Main results

* `Path.components_join` — **a path below another has the components of both.**
* `Path.components_child` — a name below a path is one more component.
* `Path.components_of_parent?` — **the parent of a path has one component less.**
* `Path.Above.exists_components_eq` — what is above a path has the first of its components.
-/

namespace SchemaForge.Path

/-! ### Pieces -/

theorem splitSlash_ne_nil (text : List Char) : splitSlash text ≠ [] := by
  cases text with
  | nil => exact List.cons_ne_nil _ _
  | cons c text =>
    rw [splitSlash]
    split
    · exact List.cons_ne_nil _ _
    · split <;> exact List.cons_ne_nil _ _

theorem splitSlash_append_slash (left right : List Char) :
    splitSlash (left ++ '/' :: right) = splitSlash left ++ splitSlash right := by
  induction left with
  | nil => rfl
  | cons c left ih =>
    rw [List.cons_append, splitSlash, splitSlash, ih]
    by_cases hc : c = '/'
    · rw [if_pos hc, if_pos hc, List.cons_append]
    · rw [if_neg hc, if_neg hc]
      obtain ⟨piece, pieces, hpieces⟩ := List.exists_cons_of_ne_nil (splitSlash_ne_nil left)
      rw [hpieces]
      rfl

theorem splitSlash_of_not_mem {piece : List Char} (h : '/' ∉ piece) :
    splitSlash piece = [piece] := by
  induction piece with
  | nil => rfl
  | cons c piece ih =>
    rw [List.mem_cons, not_or] at h
    rw [splitSlash, if_neg (Ne.symm h.1), ih h.2]

/-! ### Components -/

/-- The components of a path's text. -/
def componentsOf (text : List Char) : List Component :=
  (if text.head? == some '/' then [.root]
    else if (splitSlash text).head? = some ['.'] then [.current]
    else []) ++ (splitSlash text).filterMap pieceComponent?

theorem components_eq (p : Path) : p.components = componentsOf p.text.toList := rfl

@[simp] theorem componentsOf_nil : componentsOf [] = [] := rfl

theorem componentsOf_slash (text : List Char) :
    componentsOf ('/' :: text) = .root :: (splitSlash text).filterMap pieceComponent? := rfl

/-- What stands behind a slash adds its pieces. -/
theorem componentsOf_append_slash {left : List Char} (h : left ≠ []) (right : List Char) :
    componentsOf (left ++ '/' :: right) =
      componentsOf left ++ (splitSlash right).filterMap pieceComponent? := by
  have hhead : (left ++ '/' :: right).head? = left.head? := List.head?_append_of_ne_nil _ h
  have hpieces : (splitSlash left ++ splitSlash right).head? = (splitSlash left).head? :=
    List.head?_append_of_ne_nil _ (splitSlash_ne_nil left)
  rw [componentsOf, componentsOf, splitSlash_append_slash, hhead, hpieces, List.filterMap_append,
    List.append_assoc]

/-- The component that a piece is if it is not nothing. -/
theorem exists_pieceComponent? {piece : List Char} (hne : piece ≠ []) (hdot : piece ≠ ['.']) :
    ∃ c, pieceComponent? piece = some c ∧ c ≠ .root := by
  rw [pieceComponent?, if_neg (by simp [hne, hdot])]
  split
  · exact ⟨.parent, rfl, by simp⟩
  · exact ⟨.name (String.ofList piece), rfl, by simp⟩

/-- Paths are the same when they have the same components. -/
theorem same_iff {p q : Path} : p.same q = true ↔ p.components = q.components := by
  rw [same, beq_iff_eq]

/-! ### Names below a path -/

/-- A text that is one name below any path. -/
structure IsName (name : String) : Prop where
  /-- It leads into no other directory. -/
  slash : '/' ∉ name.toList
  /-- It is not empty, and means neither the directory nor the one above it. -/
  ne : name ∉ ["", ".", ".."]

theorem IsName.pieceComponent?_eq {name : String} (h : IsName name) :
    pieceComponent? name.toList = some (.name name) := by
  have hne := h.ne
  simp only [List.mem_cons, List.not_mem_nil, or_false, not_or] at hne
  have hempty : name.toList ≠ [] := fun heq => hne.1 (String.toList_inj.1 heq)
  have hdot : name.toList ≠ ['.'] := fun heq => hne.2.1 (String.toList_inj.1 heq)
  have hdots : name.toList ≠ ['.', '.'] := fun heq => hne.2.2 (String.toList_inj.1 heq)
  rw [pieceComponent?, if_neg (by simp [hempty, hdot]), if_neg hdots, String.ofList_toList]

theorem IsName.filterMap_splitSlash {name : String} (h : IsName name) :
    (splitSlash name.toList).filterMap pieceComponent? = [.name name] := by
  rw [splitSlash_of_not_mem h.slash, List.filterMap_cons_some h.pieceComponent?_eq,
    List.filterMap_nil]

/-- A path that adds its own components to those of a path that it goes below: it is relative, and
has no dot in front. -/
structure IsBelow (q : Path) : Prop where
  /-- It is relative. -/
  relative : q.isAbsolute = false
  /-- No dot is in front. -/
  dot : (splitSlash q.text.toList).head? ≠ some ['.']

instance (q : Path) : Decidable (IsBelow q) :=
  decidable_of_iff (q.isAbsolute = false ∧ (splitSlash q.text.toList).head? ≠ some ['.'])
    ⟨fun h => ⟨h.1, h.2⟩, fun h => ⟨h.relative, h.dot⟩⟩

theorem IsBelow.components_eq {q : Path} (h : IsBelow q) :
    q.components = (splitSlash q.text.toList).filterMap pieceComponent? := by
  rw [components, h.relative, if_neg Bool.false_ne_true, if_neg h.dot, List.nil_append]

/-- **A path below another has the components of both**, however the first ends. -/
theorem components_join (p : Path) {q : Path} (h : IsBelow q) :
    (p.join q).components = p.components ++ q.components := by
  rw [join, h.relative, Bool.false_or]
  by_cases hempty : p.text.isEmpty = true
  · have htext : p.text.toList = [] := by
      rw [String.isEmpty_iff] at hempty
      rw [hempty]
      rfl
    rw [if_pos hempty, Path.components_eq p, htext, componentsOf_nil, List.nil_append]
  have hne : p.text.toList ≠ [] := by
    intro heq
    exact hempty (String.isEmpty_iff.2 (String.toList_inj.1 heq))
  rw [if_neg hempty, h.components_eq]
  split
  · next hlast =>
    -- the path ends in a slash, behind which the other stands
    obtain ⟨front, hfront⟩ := List.getLast?_eq_some_iff.1 hlast
    rw [Path.components_eq, Path.components_eq, String.toList_append, hfront, List.append_assoc,
      List.singleton_append]
    cases front with
    | nil =>
      rw [List.nil_append, List.nil_append, componentsOf_slash, componentsOf_slash]
      rfl
    | cons c front =>
      rw [componentsOf_append_slash (List.cons_ne_nil c front),
        componentsOf_append_slash (List.cons_ne_nil c front), List.append_assoc]
      rfl
  · rw [Path.components_eq, Path.components_eq, String.toList_append, String.toList_append,
      List.append_assoc]
    exact componentsOf_append_slash hne q.text.toList

/-- A name goes below any path. -/
theorem IsName.isBelow {name : String} (h : IsName name) : IsBelow ⟨name⟩ where
  relative := by
    rw [isAbsolute, beq_eq_false_iff_ne]
    intro heq
    exact h.slash (List.mem_of_mem_head? heq)
  dot := by
    have hne := h.ne
    simp only [List.mem_cons, List.not_mem_nil, or_false, not_or] at hne
    rw [splitSlash_of_not_mem h.slash, List.head?_cons, Ne, Option.some_inj]
    exact fun heq => hne.2.1 (String.toList_inj.1 heq)

theorem IsName.components_eq {name : String} (h : IsName name) :
    (⟨name⟩ : Path).components = [.name name] :=
  h.isBelow.components_eq.trans h.filterMap_splitSlash

/-- A name below a path is one more component, however the path ends. -/
theorem components_child (p : Path) {name : String} (h : IsName name) :
    (p.child name).components = p.components ++ [.name name] := by
  rw [child, components_join p h.isBelow, h.components_eq]

/-- The name that a path ends in, if it ends in one. -/
def name? (p : Path) : Option String :=
  match p.components.getLast? with
  | some (.name name) => some name
  | _ => none

theorem name?_eq_some_iff {p : Path} {name : String} :
    p.name? = some name ↔ ∃ above, p.components = above ++ [.name name] := by
  rw [← List.getLast?_eq_some_iff, name?]
  split
  · next name' hlast => simp [hlast]
  · next hlast =>
    constructor
    · intro h
      cases h
    · intro h
      exact absurd h (hlast name)

@[simp] theorem name?_child (p : Path) {name : String} (h : IsName name) :
    (p.child name).name? = some name :=
  name?_eq_some_iff.2 ⟨p.components, components_child p h⟩

/-- Two paths end in different names. -/
def NamedApart (p q : Path) : Prop :=
  ∃ name name', p.name? = some name ∧ q.name? = some name' ∧ name ≠ name'

/-- Paths that end in different names are different. -/
theorem NamedApart.not_same {p q : Path} (h : p.NamedApart q) : ¬ p.same q = true := by
  intro hsame
  obtain ⟨name, name', hp, hq, hne⟩ := h
  rw [name?, same_iff.1 hsame, ← name?, hq, Option.some_inj] at hp
  exact hne hp.symm

/-! ### Parents -/

/-- What means nothing at the end of a text adds no component. -/
theorem componentsOf_dropTrailing (reversed : List Char) :
    componentsOf (dropTrailing reversed).reverse = componentsOf reversed.reverse := by
  fun_induction dropTrailing reversed with
  | case1 => rfl
  | case2 rest hne ih =>
    have hrest : rest.reverse ≠ [] := by
      intro heq
      rw [List.reverse_eq_nil_iff] at heq
      exact hne (heq ▸ rfl)
    rw [ih, List.reverse_cons, componentsOf_append_slash hrest]
    exact (List.append_nil _).symm
  | case3 rest ih =>
    rw [ih, List.reverse_cons, List.reverse_cons, List.reverse_cons, List.append_assoc]
    cases hrest : rest.reverse with
    | nil => rfl
    | cons c front =>
      rw [componentsOf_append_slash (List.cons_ne_nil c front)]
      exact (componentsOf_append_slash (List.cons_ne_nil c front) ['.']).symm
  | case4 => rfl

/-- A text whose end means something is empty, the root, or ends in a piece that is more than a
dot unless it is all. -/
theorem dropTrailing_cases (reversed : List Char) :
    dropTrailing reversed = [] ∨ dropTrailing reversed = ['/'] ∨
      ∃ piece rest, dropTrailing reversed = piece ++ rest ∧ piece ≠ [] ∧ '/' ∉ piece ∧
        (rest = [] ∨ piece ≠ ['.'] ∧ ∃ above, rest = '/' :: above) := by
  fun_induction dropTrailing reversed with
  | case1 => exact .inr (.inl rfl)
  | case2 rest _ ih => exact ih
  | case3 rest ih => exact ih
  | case4 text hroot hslash hdot =>
    cases text with
    | nil => exact .inl rfl
    | cons c text =>
      have hc : c ≠ '/' := by
        rintro rfl
        exact hslash text rfl
      right
      right
      refine ⟨(c :: text).takeWhile (· ≠ '/'), (c :: text).dropWhile (· ≠ '/'),
        (List.takeWhile_append_dropWhile).symm, ?_, ?_, ?_⟩
      · rw [List.takeWhile_cons_of_pos (by simpa using hc)]
        exact List.cons_ne_nil _ _
      · intro hmem
        have hall := List.mem_takeWhile_imp hmem
        simp at hall
      · cases hrest : (c :: text).dropWhile (· ≠ '/') with
        | nil => exact .inl rfl
        | cons d above =>
          have hd : d = '/' := by
            have hhead := List.head?_dropWhile_not (fun x => decide (x ≠ '/')) (c :: text)
            rw [hrest] at hhead
            simpa using hhead
          subst hd
          refine .inr ⟨fun hpiece => ?_, above, rfl⟩
          -- a dot in front of a slash would have been dropped
          have htext := List.takeWhile_append_dropWhile (p := fun x => decide (x ≠ '/'))
            (l := c :: text)
          rw [hpiece, hrest] at htext
          cases htext
          exact hdot above rfl

/-- The last component of a text that ends in a piece. -/
theorem exists_componentsOf_eq_concat {piece rest : List Char} (hne : piece ≠ [])
    (hslash : '/' ∉ piece)
    (hrest : rest = [] ∨ piece ≠ ['.'] ∧ ∃ above, rest = '/' :: above) :
    ∃ c, componentsOf (piece ++ rest).reverse = componentsOf rest.reverse ++ [c] := by
  have hne' : piece.reverse ≠ [] := by simpa using hne
  have hslash' : '/' ∉ piece.reverse := by simpa using hslash
  rcases hrest with rfl | ⟨hdot, above, rfl⟩
  · have hhead : piece.reverse.head? ≠ some '/' := fun heq =>
      hslash' (List.mem_of_mem_head? heq)
    rw [List.append_nil, componentsOf, if_neg (by simpa using hhead), splitSlash_of_not_mem hslash']
    by_cases hdot : piece.reverse = ['.']
    · rw [hdot]
      exact ⟨.current, rfl⟩
    · obtain ⟨c, hc, -⟩ := exists_pieceComponent? hne' hdot
      rw [if_neg (by simpa using hdot), List.filterMap_cons_some hc]
      exact ⟨c, rfl⟩
  · have hdot' : piece.reverse ≠ ['.'] := by
      intro heq
      rw [List.reverse_eq_iff] at heq
      exact hdot heq
    obtain ⟨c, hc, -⟩ := exists_pieceComponent? hne' hdot'
    have hpiece : (splitSlash piece.reverse).filterMap pieceComponent? = [c] := by
      rw [splitSlash_of_not_mem hslash', List.filterMap_cons_some hc, List.filterMap_nil]
    refine ⟨c, ?_⟩
    rw [List.reverse_append, List.reverse_cons, List.append_assoc, List.singleton_append]
    cases habove : above.reverse with
    | nil => rw [List.nil_append, List.nil_append, componentsOf_slash, hpiece]; rfl
    | cons d front =>
      rw [componentsOf_append_slash (List.cons_ne_nil d front), hpiece,
        componentsOf_append_slash (List.cons_ne_nil d front)]
      simp [pieceComponent?]

/-- **The parent of a path has one component less.** -/
theorem components_of_parent? {p q : Path} (h : p.parent? = some q) :
    q.components = p.components.dropLast := by
  have hcomponents : p.components = componentsOf (dropTrailing p.text.toList.reverse).reverse := by
    rw [componentsOf_dropTrailing, List.reverse_reverse, Path.components_eq]
  rw [parent?] at h
  rcases dropTrailing_cases p.text.toList.reverse with hnil | hroot |
    ⟨piece, rest, hpiece, hne, hslash, hrest⟩
  · rw [hnil] at hcomponents
    rw [hcomponents] at h
    cases h
  · rw [hroot] at hcomponents
    rw [hcomponents] at h
    cases h
  · rw [hpiece] at hcomponents h
    obtain ⟨c, hc⟩ := exists_componentsOf_eq_concat hne hslash hrest
    have hpast : ∀ c ∈ piece, decide (c ≠ '/') = true := by
      intro c hmem
      exact decide_eq_true fun heq => hslash (heq ▸ hmem)
    have hdrop : (piece ++ rest).dropWhile (· ≠ '/') = rest := by
      rw [List.dropWhile_append_of_pos hpast]
      rcases hrest with rfl | ⟨-, above, rfl⟩ <;> rfl
    split at h
    · cases h
    · cases h
    · cases h
      rw [hcomponents, hc, List.dropLast_concat, Path.components_eq, String.toList_ofList, dropLast,
        hdrop, componentsOf_dropTrailing]

/-- A path is above another: its parent, or above that. -/
inductive Above (q : Path) : Path → Prop where
  /-- The parent is above. -/
  | parent {p : Path} (h : p.parent? = some q) : Above q p
  /-- What is above the parent is above. -/
  | above {p r : Path} (h : p.parent? = some r) (hr : Above q r) : Above q p

theorem exists_components_eq_of_parent? {p q : Path} (h : p.parent? = some q) :
    ∃ last, last ≠ .root ∧ p.components = q.components ++ [last] := by
  cases hlast : p.components.getLast? with
  | none =>
    rw [parent?, hlast] at h
    cases h
  | some last =>
    obtain ⟨front, hfront⟩ := List.getLast?_eq_some_iff.1 hlast
    refine ⟨last, ?_, ?_⟩
    · rintro rfl
      rw [parent?, hlast] at h
      cases h
    · rw [components_of_parent? h, hfront, List.dropLast_concat]

/-- **What is above a path has the first of its components, and not all**; the root is no component
that it lacks. -/
theorem Above.exists_components_eq {p q : Path} (h : q.Above p) :
    ∃ below, below ≠ [] ∧ .root ∉ below ∧ p.components = q.components ++ below := by
  induction h with
  | parent hparent =>
    obtain ⟨last, hroot, hlast⟩ := exists_components_eq_of_parent? hparent
    exact ⟨[last], List.cons_ne_nil last [], by simpa using Ne.symm hroot, hlast⟩
  | above hparent _ ih =>
    obtain ⟨last, hroot, hlast⟩ := exists_components_eq_of_parent? hparent
    obtain ⟨below, -, hbelowRoot, hbelow⟩ := ih
    refine ⟨below ++ [last], List.concat_ne_nil last below, ?_, ?_⟩
    · simpa [hbelowRoot] using Ne.symm hroot
    · rw [hlast, hbelow, List.append_assoc]

end SchemaForge.Path
