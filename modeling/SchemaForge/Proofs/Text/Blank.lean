import Mathlib
import SchemaForge.Text.Blank
import SchemaForge.Text.Alphanumeric

/-!
# Blanks at the end of a text

## Main results

* `isAlphanumeric_eq_false_of_isBlank` — no blank belongs to a word.
* `trimEnd_append_of_isBlank`, `trimEnd_concat` — what trimming takes away, and where it stops.
* `trimEnd_trimEnd` — it takes away all at once.
-/

namespace SchemaForge.Text

/-! ### The blanks -/

/-- The blanks, one by one. -/
def blanks : List Nat :=
  [9, 10, 11, 12, 13, 0x20, 0x85, 0xA0, 0x1680, 0x2000, 0x2001, 0x2002, 0x2003, 0x2004, 0x2005,
   0x2006, 0x2007, 0x2008, 0x2009, 0x200A, 0x2028, 0x2029, 0x202F, 0x205F, 0x3000]

theorem toNat_mem_blanks {c : Char} (h : isBlank c = true) : c.toNat ∈ blanks := by
  simp only [isBlank, Bool.or_eq_true, Bool.and_eq_true, decide_eq_true_eq, beq_iff_eq] at h
  simp only [blanks, List.mem_cons, List.not_mem_nil]
  omega

/-- No blank belongs to a word. -/
theorem isAlphanumeric_eq_false_of_isBlank {c : Char} (h : isBlank c = true) :
    isAlphanumeric c = false := by
  have hall : ∀ n ∈ blanks, isAlphanumeric (Char.ofNat n) = false := by decide +kernel
  have hc := hall c.toNat (toNat_mem_blanks h)
  rwa [Char.ofNat_toNat] at hc

/-! ### Trimming -/

theorem trimEnd_eq_nil_of_isBlank {text : List Char} (h : ∀ c ∈ text, isBlank c = true) :
    trimEnd text = [] := by
  induction text with
  | nil => rfl
  | cons c rest ih =>
    rw [trimEnd, ih fun d hd => h d (List.mem_cons_of_mem c hd)]
    simp [h c (List.mem_cons_self ..)]

theorem trimEnd_cons_of_ne_nil (c : Char) {text : List Char} (h : trimEnd text ≠ []) :
    trimEnd (c :: text) = c :: trimEnd text := by
  rw [trimEnd]
  split
  · next hnil => exact absurd hnil h
  · rfl

theorem trimEnd_cons_of_not_isBlank {c : Char} (h : isBlank c = false) (text : List Char) :
    trimEnd (c :: text) = c :: trimEnd text := by
  rw [trimEnd]
  split
  · next hnil => simp [h, hnil]
  · rfl

theorem trimEnd_append_of_ne_nil (front : List Char) {text : List Char} (h : trimEnd text ≠ []) :
    trimEnd (front ++ text) = front ++ trimEnd text := by
  induction front with
  | nil => rfl
  | cons c front ih =>
    rw [List.cons_append, trimEnd_cons_of_ne_nil, ih, List.cons_append]
    rw [ih]
    exact List.append_ne_nil_of_right_ne_nil front h

/-- Blanks at the end make no difference. -/
theorem trimEnd_append_of_isBlank (front : List Char) {text : List Char}
    (h : ∀ c ∈ text, isBlank c = true) : trimEnd (front ++ text) = trimEnd front := by
  induction front with
  | nil => exact trimEnd_eq_nil_of_isBlank h
  | cons c front ih => rw [List.cons_append, trimEnd, trimEnd, ih]

/-- A text that ends in no blank stays as it is. -/
theorem trimEnd_concat (front : List Char) {c : Char} (h : isBlank c = false) :
    trimEnd (front ++ [c]) = front ++ [c] := by
  have hc : trimEnd [c] = [c] := by simp [trimEnd, h]
  rw [trimEnd_append_of_ne_nil front (by rw [hc]; simp), hc]

/-- Trimming leaves nothing, or something that ends in no blank. -/
theorem trimEnd_eq_nil_or_concat (text : List Char) :
    trimEnd text = [] ∨ ∃ front c, trimEnd text = front ++ [c] ∧ isBlank c = false := by
  induction text with
  | nil => exact .inl rfl
  | cons c text ih =>
    rw [trimEnd]
    rcases ih with h | ⟨front, d, h, hd⟩
    · rw [h]
      cases hc : isBlank c with
      | true => exact .inl rfl
      | false => exact .inr ⟨[], c, rfl, hc⟩
    · rw [h]
      refine .inr ⟨c :: front, d, ?_, hd⟩
      cases front <;> rfl

/-- Trimming takes away all there is at once. -/
@[simp] theorem trimEnd_trimEnd (text : List Char) : trimEnd (trimEnd text) = trimEnd text := by
  rcases trimEnd_eq_nil_or_concat text with h | ⟨front, c, h, hc⟩
  · rw [h, trimEnd_nil]
  · rw [h, trimEnd_concat front hc]

/-- What trimming leaves is the front of the text. -/
theorem trimEnd_isPrefix (text : List Char) : trimEnd text <+: text := by
  induction text with
  | nil => exact List.nil_prefix
  | cons c text ih =>
    rw [trimEnd]
    split
    · split
      · exact List.nil_prefix
      · exact List.cons_prefix_cons.2 ⟨rfl, List.nil_prefix⟩
    · exact List.cons_prefix_cons.2 ⟨rfl, ih⟩

/-- What is trimmed from the end of a text are blanks. -/
theorem exists_trimEnd_append (text : List Char) :
    ∃ gap, trimEnd text ++ gap = text ∧ ∀ c ∈ gap, isBlank c = true := by
  induction text with
  | nil => exact ⟨[], rfl, by simp⟩
  | cons c text ih =>
    obtain ⟨gap, htext, hgap⟩ := ih
    rw [trimEnd]
    split
    · next hnil =>
      rw [hnil, List.nil_append] at htext
      subst htext
      by_cases hc : isBlank c = true
      · rw [if_pos hc]
        exact ⟨c :: gap, rfl, List.forall_mem_cons.2 ⟨hc, hgap⟩⟩
      · rw [if_neg hc]
        exact ⟨gap, rfl, hgap⟩
    · exact ⟨gap, by rw [List.cons_append, htext], hgap⟩

end SchemaForge.Text
