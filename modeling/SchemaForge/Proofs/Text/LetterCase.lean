import Mathlib
import SchemaForge.Text.LetterCase
import SchemaForge.Text.Alphanumeric

/-!
# Letter case in ASCII and beyond

Names change case by the rules of ASCII, and the stems of services by those of all scripts.  A
letter of ASCII counts the same for the second, whichever case it has.

## Main results

* `lowercase_map_toLower` — **small letters of ASCII are lost on the full lowercase form.**
* `not_mem_lowercase` — the lowercase form of a text brings in no mark below the letters.
-/

namespace SchemaForge.Text

/-! ### Letters of ASCII -/

section

variable {c : Char}

theorem toNat_of_isUpper (h : c.isUpper = true) : 65 ≤ c.toNat ∧ c.toNat ≤ 90 := by
  simp only [Char.isUpper, decide_eq_true_eq] at h
  exact h

theorem toNat_of_isLower (h : c.isLower = true) : 97 ≤ c.toNat ∧ c.toNat ≤ 122 := by
  simp only [Char.isLower, Bool.and_eq_true, decide_eq_true_eq] at h
  exact h

theorem toNat_toLower_of_isUpper (h : c.isUpper = true) : c.toLower.toNat = c.toNat + 32 := by
  have hrange := toNat_of_isUpper h
  rw [Char.toLower_eq_of_isUpper h, Char.toNat_ofNat, if_pos]
  left
  omega

theorem toNat_toUpper_of_isLower (h : c.isLower = true) : c.toUpper.toNat = c.toNat - 32 := by
  have hrange := toNat_of_isLower h
  rw [Char.toUpper_eq_of_isLower h, Char.toNat_ofNat, if_pos]
  left
  omega

theorem isLower_toLower_of_isUpper (h : c.isUpper = true) : c.toLower.isLower = true := by
  have hrange := toNat_of_isUpper h
  have hlower := toNat_toLower_of_isUpper h
  have h97 : 97 ≤ c.toLower.toNat := by omega
  have h122 : c.toLower.toNat ≤ 122 := by omega
  simp only [Char.isLower, Bool.and_eq_true, decide_eq_true_eq]
  exact ⟨h97, h122⟩

theorem isUpper_toUpper_of_isLower (h : c.isLower = true) : c.toUpper.isUpper = true := by
  have hrange := toNat_of_isLower h
  have hupper := toNat_toUpper_of_isLower h
  have h65 : 65 ≤ c.toUpper.toNat := by omega
  have h90 : c.toUpper.toNat ≤ 90 := by omega
  simp only [Char.isUpper, decide_eq_true_eq]
  exact ⟨h65, h90⟩

/-- A character below the small letters that has become small was that character. -/
theorem eq_of_toLower_eq {d : Char} (hd : d.toNat < 97) (h : c.toLower = d) : c = d := by
  by_cases hupper : c.isUpper = true
  · have hrange := toNat_of_isUpper hupper
    have hlower := toNat_toLower_of_isUpper hupper
    rw [h] at hlower
    omega
  · rw [← h, Char.toLower_eq_of_not_isUpper hupper]

theorem isAlphanumeric_of_isUpper (h : c.isUpper = true) : isAlphanumeric c = true := by
  have hrange := toNat_of_isUpper h
  have hascii : c.toNat < 128 := by omega
  simp [isAlphanumeric, isAlphabetic, hascii, Char.isAlpha, h]

theorem isAlphanumeric_of_isLower (h : c.isLower = true) : isAlphanumeric c = true := by
  have hrange := toNat_of_isLower h
  have hascii : c.toNat < 128 := by omega
  simp [isAlphanumeric, isAlphabetic, hascii, Char.isAlpha, h]

theorem isAlphanumeric_toLower (h : isAlphanumeric c = true) : isAlphanumeric c.toLower = true := by
  by_cases hupper : c.isUpper = true
  · exact isAlphanumeric_of_isLower (isLower_toLower_of_isUpper hupper)
  · rwa [Char.toLower_eq_of_not_isUpper hupper]

theorem isAlphanumeric_toUpper (h : isAlphanumeric c = true) : isAlphanumeric c.toUpper = true := by
  by_cases hlower : c.isLower = true
  · exact isAlphanumeric_of_isUpper (isUpper_toUpper_of_isLower hlower)
  · rwa [Char.toUpper_eq_of_not_isLower hlower]

end

/-! ### The full lowercase form -/

section

set_option maxRecDepth 4000 in
/-- No letter of ASCII is among the characters that the rule of the final sigma looks past. -/
theorem caseIgnorableRuns_apart :
    caseIgnorableRuns.all (fun r => (r.2 < 65 || 90 < r.1) && (r.2 < 97 || 122 < r.1)) = true := by
  decide

theorem isCaseIgnorable_eq_false {c : Char} (h : c.isUpper = true ∨ c.isLower = true) :
    isCaseIgnorable c = false := by
  have hrange : (65 ≤ c.toNat ∧ c.toNat ≤ 90) ∨ (97 ≤ c.toNat ∧ c.toNat ≤ 122) :=
    h.imp toNat_of_isUpper toNat_of_isLower
  rw [isCaseIgnorable, inRuns, List.any_eq_false]
  intro r hr
  have hapart := List.all_eq_true.1 caseIgnorableRuns_apart r hr
  simp only [Bool.and_eq_true, Bool.or_eq_true, decide_eq_true_eq] at hapart ⊢
  omega

variable {c : Char}

theorem isCaseIgnorable_toLower : isCaseIgnorable c.toLower = isCaseIgnorable c := by
  by_cases h : c.isUpper = true
  · rw [isCaseIgnorable_eq_false (.inl h),
      isCaseIgnorable_eq_false (.inr (isLower_toLower_of_isUpper h))]
  · rw [Char.toLower_eq_of_not_isUpper h]

theorem isCased_toLower : isCased c.toLower = isCased c := by
  by_cases h : c.isUpper = true
  · have hrange := toNat_of_isUpper h
    have hlower := toNat_toLower_of_isUpper h
    have hascii : c.toNat < 128 := by omega
    have hascii' : c.toLower.toNat < 128 := by omega
    simp [isCased, isLowercase, isUppercase, hascii, hascii', h, isLower_toLower_of_isUpper h]
  · rw [Char.toLower_eq_of_not_isUpper h]

theorem lowercaseChar_toLower : lowercaseChar c.toLower = lowercaseChar c := by
  by_cases h : c.isUpper = true
  · have hrange := toNat_of_isUpper h
    have hlower := toNat_toLower_of_isUpper h
    have hascii : c.toNat < 128 := by omega
    have hascii' : c.toLower.toNat < 128 := by omega
    simp [lowercaseChar, hascii, hascii', Char.toLower_toLower_eq_toLower]
  · rw [Char.toLower_eq_of_not_isUpper h]

theorem toLower_eq_sigma_iff : c.toLower = 'Σ' ↔ c = 'Σ' := by
  by_cases h : c.isUpper = true
  · have hrange := toNat_of_isUpper h
    have hlower := toNat_toLower_of_isUpper h
    have hsigma : 'Σ'.toNat = 931 := rfl
    constructor
    · intro heq
      rw [heq] at hlower
      omega
    · intro heq
      rw [heq] at hrange
      omega
  · rw [Char.toLower_eq_of_not_isUpper h]

theorem meetsCased_map_toLower (text : List Char) :
    meetsCased (text.map Char.toLower) = meetsCased text := by
  induction text with
  | nil => rfl
  | cons c text ih =>
    unfold meetsCased at ih ⊢
    rw [List.map_cons, List.dropWhile_cons, List.dropWhile_cons, isCaseIgnorable_toLower]
    by_cases h : isCaseIgnorable c = true
    · rw [if_pos h, if_pos h, ih]
    · rw [if_neg h, if_neg h]
      exact isCased_toLower

/-- **The full lowercase form is the same after ASCII letters are made small.** -/
theorem lowercaseFrom_map_toLower (before text : List Char) :
    lowercaseFrom (before.map Char.toLower) (text.map Char.toLower) =
      lowercaseFrom before text := by
  induction text generalizing before with
  | nil => rfl
  | cons c text ih =>
    have hrest := ih (c :: before)
    rw [List.map_cons] at hrest
    rw [List.map_cons, lowercaseFrom, lowercaseFrom, hrest, meetsCased_map_toLower,
      meetsCased_map_toLower, lowercaseChar_toLower]
    simp only [toLower_eq_sigma_iff]

theorem lowercase_map_toLower (text : List Char) :
    lowercase (text.map Char.toLower) = lowercase text :=
  lowercaseFrom_map_toLower [] text

/-- The simple mappings lead to no mark below the small letters. -/
theorem mapLowercase_eq_or_le (n : Nat) :
    mapLowercase n lowercaseMap = n ∨ 97 ≤ mapLowercase n lowercaseMap := by
  have hmap : ∀ runs : List (Nat × Nat × Nat × Nat),
      runs.all (fun r => 97 ≤ r.2.2.2) = true →
      mapLowercase n runs = n ∨ 97 ≤ mapLowercase n runs := by
    intro runs hruns
    induction runs with
    | nil => exact .inl rfl
    | cons r runs ih =>
      obtain ⟨first, last, step, target⟩ := r
      rw [List.all_cons, Bool.and_eq_true, decide_eq_true_eq] at hruns
      rw [mapLowercase]
      split
      · right
        have htarget : 97 ≤ target := hruns.1
        omega
      · exact ih hruns.2
  exact hmap lowercaseMap (by decide)

theorem not_mem_lowercaseChar {d : Char} (hpos : 0 < d.toNat) (hd : d.toNat < 97) (h : c ≠ d) :
    d ∉ lowercaseChar c := by
  intro hmem
  rw [lowercaseChar] at hmem
  split at hmem
  · exact h (eq_of_toLower_eq hd (List.mem_singleton.1 hmem).symm)
  next hascii =>
  split at hmem
  · rcases List.mem_pair.1 hmem with rfl | rfl
    · exact absurd hd (by decide)
    · exact absurd hd (by decide)
  · have heq : d.toNat = (Char.ofNat (mapLowercase c.toNat lowercaseMap)).toNat :=
      congrArg Char.toNat (List.mem_singleton.1 hmem)
    rw [Char.toNat_ofNat] at heq
    have hmap := mapLowercase_eq_or_le c.toNat
    split at heq <;> omega

theorem not_mem_lowercaseFrom {d : Char} (hpos : 0 < d.toNat) (hd : d.toNat < 97)
    {before text : List Char} (h : d ∉ text) : d ∉ lowercaseFrom before text := by
  induction text generalizing before with
  | nil => exact List.not_mem_nil
  | cons c text ih =>
    rw [List.mem_cons, not_or] at h
    have hsigma : ∀ e ∈ ['ς', 'σ'], d ≠ e := by
      intro e he heq
      subst heq
      rcases List.mem_pair.1 he with rfl | rfl
      · exact absurd hd (by decide)
      · exact absurd hd (by decide)
    rw [lowercaseFrom, List.mem_append, not_or]
    refine ⟨?_, ih h.2⟩
    split
    · rw [List.mem_singleton]
      split
      · exact hsigma _ (by simp)
      · exact hsigma _ (by simp)
    · exact not_mem_lowercaseChar hpos hd (Ne.symm h.1)

/-- **The lowercase form of a text brings in no mark below the letters.** -/
theorem not_mem_lowercase {d : Char} (hpos : 0 < d.toNat) (hd : d.toNat < 97) {text : List Char}
    (h : d ∉ text) : d ∉ lowercase text :=
  not_mem_lowercaseFrom hpos hd h

end

end SchemaForge.Text
