import SchemaForge.Name.Case
import SchemaForge.Proofs.Path
import SchemaForge.Proofs.Text.LetterCase
import SchemaForge.Skeleton.ProjectName

/-!
# Names that projects may have

The checks of a name overlap: no special character is plain, and of the reserved names those with a
dot are not plain either.  What is left of the checks is that a name is not empty, plain and not
reserved.  Such a name is one name below any path, and is never read as anything else.

## Main definitions

* `IsProjectName` — what the checks come to.

## Main results

* `projectName_eq_ok_iff` — **a name is taken exactly when it is one for a project.**
* `IsProjectName.isName` — a name for a project is one name below any path.
* `isPlain_snakeChars` — a plain name stays plain in small letters.
-/

namespace SchemaForge

/-- The characters of a name for a project. -/
structure IsProjectName (chars : List Char) : Prop where
  /-- There are some. -/
  ne_nil : chars ≠ []
  /-- They are letters and digits of ASCII, hyphens and underscores. -/
  plain : ∀ c ∈ chars, isPlain c = true
  /-- They are no reserved name, whatever the case of the letters. -/
  notReserved : ∀ r ∈ reservedNames, r.toList.map Char.toLower ≠ chars.map Char.toLower

section

variable {chars : List Char} {c : Char} {name found : String}

theorem isPlain_iff :
    isPlain c = true ↔ c.isAlphanum = true ∨ c = '-' ∨ c = '_' := by
  simp [isPlain, or_assoc]

/-! ### The checks -/

/-- Special characters are not plain. -/
theorem isPlain_eq_false_of_mem_specialChars (h : c ∈ specialChars) : isPlain c = false := by
  have hall : (specialChars.all fun c => !isPlain c) = true := by decide
  simpa using List.all_eq_true.1 hall c h

/-- Reserved names are in small letters. -/
theorem map_toLower_of_mem_reservedNames {r : String} (h : r ∈ reservedNames) :
    r.toList.map Char.toLower = r.toList := by
  have hall : ∀ r ∈ reservedNames, r.toList.map Char.toLower = r.toList := by decide +kernel
  exact hall r h

theorem contains_reservedNames_iff :
    reservedNames.contains (String.ofList (chars.map Char.toLower)) = true ↔
      ∃ r ∈ reservedNames, r.toList.map Char.toLower = chars.map Char.toLower := by
  rw [List.contains_iff_mem]
  constructor
  · intro h
    exact ⟨_, h, by rw [map_toLower_of_mem_reservedNames h, String.toList_ofList]⟩
  · rintro ⟨r, hr, heq⟩
    rw [map_toLower_of_mem_reservedNames hr] at heq
    rwa [← heq, String.ofList_toList]

/-- **A name is taken exactly when it is one for a project**, and without the blanks around it. -/
theorem projectName_eq_ok_iff :
    projectName name = .ok found ↔
      IsProjectName (Text.trim name.toList) ∧ found = String.ofList (Text.trim name.toList) := by
  rw [projectName]
  constructor
  · intro h
    split at h
    · cases h
    · next hempty =>
      split at h
      · cases h
      · split at h
        · cases h
        · next hreserved =>
          split at h
          · cases h
          · next hplain =>
            cases h
            refine ⟨⟨by simpa using hempty, by simpa using hplain, fun r hr heq => ?_⟩, rfl⟩
            exact hreserved (contains_reservedNames_iff.2 ⟨r, hr, heq⟩)
  · rintro ⟨hname, rfl⟩
    have hspecial : ¬ (Text.trim name.toList).any specialChars.contains = true := by
      rw [List.any_eq_true]
      rintro ⟨c, hc, hspecial⟩
      have hplain := hname.plain c hc
      rw [isPlain_eq_false_of_mem_specialChars (List.contains_iff_mem.1 hspecial)] at hplain
      cases hplain
    have hreserved :
        ¬ reservedNames.contains (String.ofList ((Text.trim name.toList).map Char.toLower)) =
          true := by
      rw [contains_reservedNames_iff]
      rintro ⟨r, hr, heq⟩
      exact hname.notReserved r hr heq
    have hplain : ¬ (!(Text.trim name.toList).all isPlain) = true := by
      simpa using hname.plain
    rw [if_neg (by simpa using hname.ne_nil), if_neg hspecial, if_neg hreserved, if_neg hplain]

/-! ### What names are -/

/-- **A name for a project is one name below any path.** -/
theorem IsProjectName.isName (h : IsProjectName chars) : Path.IsName (String.ofList chars) where
  slash := by
    rw [String.toList_ofList]
    intro hslash
    exact absurd (h.plain '/' hslash) (by decide)
  ne := by
    intro hmem
    simp only [List.mem_cons, List.not_mem_nil, or_false] at hmem
    rcases hmem with heq | heq | heq
    · exact h.ne_nil (String.ofList_injective heq)
    · obtain rfl : chars = ['.'] := String.ofList_injective heq
      exact absurd (h.plain '.' (List.mem_cons_self ..)) (by decide)
    · obtain rfl : chars = ['.', '.'] := String.ofList_injective heq
      exact absurd (h.plain '.' (List.mem_cons_self ..)) (by decide)

theorem isPlain_toLower (h : isPlain c = true) : isPlain c.toLower = true := by
  by_cases hupper : c.isUpper = true
  · have hlower := Text.isLower_toLower_of_isUpper hupper
    exact isPlain_iff.2 (.inl (by simp [Char.isAlphanum, Char.isAlpha, hlower]))
  · rwa [Char.toLower_eq_of_not_isUpper hupper]

theorem toNat_lt_of_isPlain (h : isPlain c = true) : c.toNat < 128 := by
  rcases isPlain_iff.1 h with halphanum | rfl | rfl
  · simp only [Char.isAlphanum, Char.isAlpha, Bool.or_eq_true] at halphanum
    rcases halphanum with (hupper | hlower) | hdigit
    · have := Text.toNat_of_isUpper hupper
      omega
    · have := Text.toNat_of_isLower hlower
      omega
    · simp only [Char.isDigit, Bool.and_eq_true, decide_eq_true_eq] at hdigit
      have hle : c.toNat ≤ 57 := hdigit.2
      omega
  · decide
  · decide

/-- **A plain name stays plain in small letters.** -/
theorem isPlain_snakeChars (h : ∀ c ∈ chars, isPlain c = true) :
    ∀ c ∈ Name.snakeChars chars, isPlain c = true := by
  induction chars with
  | nil => simp
  | cons d chars ih =>
    obtain ⟨hd, hchars⟩ := List.forall_mem_cons.1 h
    have hrest := ih hchars
    have hlower : ∀ c ∈ Text.lowercaseChar d, isPlain c = true := by
      rw [Text.lowercaseChar, if_pos (toNat_lt_of_isPlain hd), List.forall_mem_singleton]
      exact isPlain_toLower hd
    have hmark : isPlain '_' = true := by decide
    rw [Name.snakeChars]
    split
    · exact List.forall_mem_cons.2 ⟨hmark, hrest⟩
    · split
      · exact List.forall_mem_append.2 ⟨hlower, List.forall_mem_cons.2 ⟨hmark, hrest⟩⟩
      · exact List.forall_mem_append.2 ⟨hlower, hrest⟩

end

end SchemaForge
