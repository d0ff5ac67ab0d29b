import SchemaForge.Name.Derived
import SchemaForge.Proofs.Text.LetterCase
import SchemaForge.Table

/-!
# Stems of file names

The files of a model have its name in their own, hyphenated or in small letters.  Hyphens stand
only between letters, and a model name has none of its own, so a hyphenated name still says which
letters the model name has.

## Main results

* `isAlphanumeric_modelName` — a model name is made of letters and digits.
* `serviceStem_eq_of_kebab_eq` — **models with one hyphenated name have one service stem.**
* `slash_not_mem_kebab`, `slash_not_mem_serviceStem` — no stem leads into another directory.
-/

namespace SchemaForge.Name

open Text

/-! ### Model names -/

theorem isAlphanumeric_of_mem_joinWords {atWord started : Bool} {last : Char} {name : List Char} :
    ∀ c ∈ joinWords atWord started last name, isAlphanumeric c = true := by
  induction name generalizing atWord started last with
  | nil => simp
  | cons c name ih =>
    rw [joinWords]
    by_cases hc : isAlphanumeric c = true
    · rw [if_neg (by simp [hc])]
      split
      · exact List.forall_mem_cons.2 ⟨hc, ih⟩
      · split
        · exact List.forall_mem_cons.2 ⟨isAlphanumeric_toUpper hc, ih⟩
        · exact List.forall_mem_cons.2 ⟨isAlphanumeric_toLower hc, ih⟩
    · rw [if_pos (by simp [hc])]
      exact ih

/-- **A model name is made of letters and digits**, whatever the name of its table. -/
theorem isAlphanumeric_modelName (t : Table) :
    ∀ c ∈ t.modelName.toList, isAlphanumeric c = true := by
  rw [Table.modelName, pascal, String.toList_ofList]
  exact isAlphanumeric_of_mem_joinWords

/-! ### Hyphenated names -/

theorem dropTail_eq_self {name : List Char} (h : ∀ c ∈ name, isAlphanumeric c = true) :
    dropTail name = name := by
  induction name with
  | nil => rfl
  | cons c name ih =>
    obtain ⟨hc, hname⟩ := List.forall_mem_cons.1 h
    rw [dropTail, ih hname]
    cases name with
    | nil => simp [hc]
    | cons d name => rfl

/-- Without its hyphens, a hyphenated name is the name in small letters. -/
theorem filter_hyphenate {name text : List Char} (h : ∀ c ∈ text, isAlphanumeric c = true)
    (atWord : Bool) (offset : Nat) :
    (hyphenate name atWord offset text).filter (· ≠ '-') = text.map Char.toLower := by
  induction text generalizing atWord offset with
  | nil => rfl
  | cons c text ih =>
    obtain ⟨hc, htext⟩ := List.forall_mem_cons.1 h
    have hsmall : c.toLower ≠ '-' := by
      intro heq
      have hhyphen := isAlphanumeric_toLower hc
      rw [heq] at hhyphen
      exact absurd hhyphen (by decide)
    rw [hyphenate, if_neg (by simp [hc])]
    split
    · rw [List.filter_cons_of_neg (by simp), List.filter_cons_of_pos (by simpa using hsmall),
        ih htext, List.map_cons]
    · rw [List.filter_cons_of_pos (by simpa using hsmall), ih htext, List.map_cons]

theorem filter_kebabChars {name : List Char} (h : ∀ c ∈ name, isAlphanumeric c = true) :
    (kebabChars name).filter (· ≠ '-') = name.map Char.toLower := by
  rw [kebabChars, dropTail_eq_self h]
  exact filter_hyphenate h true 0

/-- **Models with one hyphenated name have one service stem.** -/
theorem serviceStem_eq_of_kebab_eq {name name' : String}
    (h : ∀ c ∈ name.toList, isAlphanumeric c = true)
    (h' : ∀ c ∈ name'.toList, isAlphanumeric c = true) (heq : kebab name = kebab name') :
    serviceStem name = serviceStem name' := by
  have hchars : kebabChars name.toList = kebabChars name'.toList := String.ofList_injective heq
  have hsmall : name.toList.map Char.toLower = name'.toList.map Char.toLower := by
    rw [← filter_kebabChars h, ← filter_kebabChars h', hchars]
  rw [serviceStem, serviceStem, ← lowercase_map_toLower, hsmall, lowercase_map_toLower]

/-! ### Stems and directories -/

theorem slash_not_mem_hyphenate {name text : List Char} (atWord : Bool) (offset : Nat) :
    '/' ∉ hyphenate name atWord offset text := by
  induction text generalizing atWord offset with
  | nil => exact List.not_mem_nil
  | cons c text ih =>
    have hhyphen : '/' ≠ '-' := by decide
    rw [hyphenate]
    by_cases hc : isAlphanumeric c = true
    · have hsmall : '/' ≠ c.toLower := by
        intro heq
        have hslash := isAlphanumeric_toLower hc
        rw [← heq] at hslash
        exact absurd hslash (by decide)
      rw [if_neg (by simp [hc])]
      split
      · simp [ih, hsmall]
      · simp [ih, hsmall]
    · rw [if_pos (by simp [hc])]
      split
      · exact ih _ _
      · simp [ih]

/-- A hyphenated name leads into no other directory. -/
theorem slash_not_mem_kebab (name : String) : '/' ∉ (kebab name).toList := by
  rw [kebab, String.toList_ofList]
  exact slash_not_mem_hyphenate true 0

/-- The service stem of a model leads into no other directory. -/
theorem slash_not_mem_serviceStem {name : String}
    (h : ∀ c ∈ name.toList, isAlphanumeric c = true) : '/' ∉ (serviceStem name).toList := by
  rw [serviceStem, String.toList_ofList]
  refine not_mem_lowercase (by decide) (by decide) fun hmem => ?_
  exact absurd (h '/' hmem) (by decide)

end SchemaForge.Name
