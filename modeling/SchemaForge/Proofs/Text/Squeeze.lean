import Mathlib
import SchemaForge.Proofs.Text.Blank

/-!
# Runs of blanks

Two texts that differ only in how long their runs of blanks are, and in which blanks stand in
them, have a common normal form: the text with one space for every run.  Trimming and collapsing
see nothing but that form.

## Main definitions

* `squeeze` — a text with every run of blanks made one space.

## Main results

* `squeeze_append_of_isBlank` — any blanks are as good as one space.
* `trim_squeeze`, `collapse_squeeze` — what is made of a text is made of its normal form.
-/

namespace SchemaForge.Text

/-- Put a character in front of a squeezed text; a blank that meets a space is dropped. -/
def addSqueezed (c : Char) (text : List Char) : List Char :=
  if isBlank c then
    if text.head? = some ' ' then text else ' ' :: text
  else c :: text

/-- A text with every run of blanks made one space. -/
def squeeze (text : List Char) : List Char :=
  text.foldr addSqueezed []

@[simp] theorem squeeze_nil : squeeze [] = [] := rfl

section

variable {c : Char} {s s' text : List Char}

theorem isBlank_space : isBlank ' ' = true := by decide

theorem squeeze_cons (c : Char) (text : List Char) :
    squeeze (c :: text) = addSqueezed c (squeeze text) := by
  rw [squeeze, List.foldr_cons, squeeze]

theorem squeeze_cons_of_not_isBlank (h : isBlank c = false) (text : List Char) :
    squeeze (c :: text) = c :: squeeze text := by
  rw [squeeze_cons, addSqueezed, if_neg (by simp [h])]

/-- A blank is dropped in front of a space, and is a space in front of anything else. -/
theorem squeeze_cons_cases (h : isBlank c = true) (text : List Char) :
    (∃ rest, squeeze text = ' ' :: rest ∧ squeeze (c :: text) = squeeze text) ∨
      squeeze (c :: text) = ' ' :: squeeze text := by
  rw [squeeze_cons, addSqueezed, if_pos h]
  by_cases hhead : (squeeze text).head? = some ' '
  · obtain ⟨rest, hrest⟩ := List.head?_eq_some_iff.1 hhead
    exact .inl ⟨rest, hrest, if_pos hhead⟩
  · exact .inr (if_neg hhead)

/-- What passes over blanks passes over them in a squeezed text. -/
theorem apply_squeeze_cons {β : Type} {f : List Char → β}
    (hf : ∀ c, isBlank c = true → ∀ text, f (c :: text) = f text) (h : isBlank c = true)
    (text : List Char) : f (squeeze (c :: text)) = f (squeeze text) := by
  rcases squeeze_cons_cases h text with ⟨-, -, heq⟩ | heq
  · rw [heq]
  · rw [heq, hf ' ' isBlank_space]

/-- A run of blanks is one space. -/
theorem squeeze_cons_of_isBlank (h : isBlank c = true) (text : List Char) :
    squeeze (c :: text) = ' ' :: squeeze (trimStart text) := by
  induction text generalizing c with
  | nil => simp [squeeze, addSqueezed, h]
  | cons d text ih =>
    rw [trimStart]
    cases hd : isBlank d with
    | true =>
      rw [List.dropWhile_cons_of_pos hd]
      rcases squeeze_cons_cases h (d :: text) with ⟨-, -, heq⟩ | heq
      · rw [heq, ih hd]
        rfl
      · -- the text behind the blank starts with a space, so the blank is dropped
        rw [squeeze_cons, addSqueezed, if_pos h, ih hd]
        rfl
    | false =>
      have hspace : d ≠ ' ' := by
        rintro rfl
        exact absurd isBlank_space (by simp [hd])
      rw [List.dropWhile_cons_of_neg (by simp [hd]), squeeze_cons, squeeze_cons_of_not_isBlank hd,
        addSqueezed, if_pos h, if_neg (by simpa using hspace)]

theorem squeeze_append (s t : List Char) : squeeze (s ++ t) = s.foldr addSqueezed (squeeze t) :=
  List.foldr_append

/-- Behind the same front, texts with the same normal form have the same normal form. -/
theorem squeeze_append_congr (front : List Char) (h : squeeze s = squeeze s') :
    squeeze (front ++ s) = squeeze (front ++ s') := by
  rw [squeeze_append, squeeze_append, h]

/-- **Any blanks are as good as one space.** -/
theorem squeeze_append_of_isBlank (h : ∀ c ∈ s, isBlank c = true) (hne : s ≠ [])
    (text : List Char) : squeeze (s ++ text) = squeeze (' ' :: text) := by
  obtain ⟨c, s, rfl⟩ := List.exists_cons_of_ne_nil hne
  obtain ⟨hc, hs⟩ := List.forall_mem_cons.1 h
  have htrim : trimStart (s ++ text) = trimStart text := List.dropWhile_append_of_pos hs
  rw [List.cons_append, squeeze_cons_of_isBlank hc, squeeze_cons_of_isBlank isBlank_space, htrim]

theorem squeeze_eq_nil_iff : squeeze text = [] ↔ text = [] := by
  constructor
  · intro h
    cases text with
    | nil => rfl
    | cons c text =>
      cases hc : isBlank c with
      | true => simp [squeeze_cons_of_isBlank hc] at h
      | false => simp [squeeze_cons_of_not_isBlank hc] at h
  · rintro rfl
    rfl

/-! ### Trimming -/

theorem trimStart_squeeze (text : List Char) :
    trimStart (squeeze text) = squeeze (trimStart text) := by
  have hblank : ∀ c, isBlank c = true → ∀ text, trimStart (c :: text) = trimStart text :=
    fun c hc text => List.dropWhile_cons_of_pos hc
  induction text with
  | nil => rfl
  | cons c text ih =>
    cases hc : isBlank c with
    | true => rw [apply_squeeze_cons hblank hc, ih, hblank c hc]
    | false =>
      have htrim : ∀ rest, trimStart (c :: rest) = c :: rest :=
        fun rest => List.dropWhile_cons_of_neg (by simp [hc])
      rw [htrim, squeeze_cons_of_not_isBlank hc, htrim]

theorem trimEnd_squeeze (text : List Char) : trimEnd (squeeze text) = squeeze (trimEnd text) := by
  induction text with
  | nil => rfl
  | cons c text ih =>
    cases hc : isBlank c with
    | false =>
      rw [squeeze_cons_of_not_isBlank hc, trimEnd_cons_of_not_isBlank hc, ih,
        trimEnd_cons_of_not_isBlank hc, squeeze_cons_of_not_isBlank hc]
    | true =>
      by_cases htext : trimEnd text = []
      · -- nothing but blanks
        have hnil : trimEnd (squeeze text) = [] := by rw [ih, htext, squeeze_nil]
        have hleft : trimEnd (c :: text) = [] := by rw [trimEnd, htext]; simp [hc]
        rw [hleft, squeeze_nil]
        rcases squeeze_cons_cases hc text with ⟨-, -, heq⟩ | heq
        · rw [heq, hnil]
        · rw [heq, trimEnd, hnil]
          simp [isBlank_space]
      · -- what is kept starts as the text does
        have hne : trimEnd (squeeze text) ≠ [] := by
          rw [ih]
          exact mt squeeze_eq_nil_iff.1 htext
        have hhead : (trimEnd (squeeze text)).head? = (squeeze text).head? := by
          obtain ⟨d, kept, hkept⟩ := List.exists_cons_of_ne_nil hne
          obtain ⟨left, hleft⟩ := trimEnd_isPrefix (squeeze text)
          rw [hkept] at hleft ⊢
          rw [← hleft]
          rfl
        rw [ih] at hhead
        rw [trimEnd_cons_of_ne_nil c htext, squeeze_cons c (trimEnd text), addSqueezed, if_pos hc,
          hhead, squeeze_cons, addSqueezed, if_pos hc, ← ih]
        split
        · rfl
        · exact trimEnd_cons_of_ne_nil ' ' hne

/-- Trimming commutes with squeezing. -/
theorem trim_squeeze (text : List Char) : trim (squeeze text) = squeeze (trim text) := by
  rw [trim, trimStart_squeeze, trimEnd_squeeze, trim]

/-! ### Words -/

theorem blankWordsFrom_squeeze (word text : List Char) :
    blankWordsFrom word (squeeze text) = blankWordsFrom word text := by
  induction text generalizing word with
  | nil => rfl
  | cons c text ih =>
    cases hc : isBlank c with
    | false =>
      rw [squeeze_cons_of_not_isBlank hc, blankWordsFrom, if_neg (by simp [hc]), ih,
        blankWordsFrom, if_neg (by simp [hc])]
    | true =>
      rw [blankWordsFrom, if_pos hc, ← ih []]
      rcases squeeze_cons_cases hc text with ⟨rest, hrest, heq⟩ | heq
      · -- the space that is there ends the word
        rw [heq, hrest, blankWordsFrom, if_pos isBlank_space, blankWordsFrom,
          if_pos isBlank_space]
        rfl
      · rw [heq, blankWordsFrom, if_pos isBlank_space]

/-- A text is collapsed as its normal form is. -/
theorem collapse_squeeze (text : List Char) : collapse (squeeze text) = collapse text := by
  rw [collapse, collapse, blankWords, blankWords, blankWordsFrom_squeeze]

end

end SchemaForge.Text
