import SchemaForge.Proofs.Text.Squeeze

/-!
# Changes of the blanks of a text

A text may be spaced otherwise: more blanks where there are some, or fewer, or others, but none
where there is none.  Such a change leaves every character that is no blank, and what it makes of
the rest of a text does not depend on what is in front.

## Main definitions

* `Respacing` — a change of the blanks of texts.

## Main results

* `respacing_squeeze` — making one space of every run of blanks is such a change.
* `Respacing.apply_cons` — what passes over blanks does not see the change.
* `Respacing.squeeze_eq` — **a text that is spaced otherwise has the same normal form.**
-/

namespace SchemaForge.Text

/-- A class without blanks has none of them. -/
theorem not_belongs_of_isBlank {belongs : Char → Bool} {c : Char}
    (h : ∀ c, belongs c = true → isBlank c = false) (hc : isBlank c = true) :
    ¬ belongs c = true := by
  intro hbelongs
  exact absurd (h c hbelongs) (by simp [hc])

/-- A change of the blanks of texts. -/
structure Respacing (f : List Char → List Char) : Prop where
  /-- Nothing is put into an empty text. -/
  nil : f [] = []
  /-- What is no blank stays. -/
  cons {c : Char} (h : isBlank c = false) (text : List Char) : f (c :: text) = c :: f text
  /-- A blank is in the place of a blank. -/
  blank {c : Char} (h : isBlank c = true) (text : List Char) :
    ∃ d rest, isBlank d = true ∧ f (c :: text) = d :: rest
  /-- What is behind blanks is behind blanks still. -/
  trimStart (text : List Char) : trimStart (f text) = f (trimStart text)

/-- To make one space of every run of blanks. -/
theorem respacing_squeeze : Respacing squeeze where
  nil := squeeze_nil
  cons h text := squeeze_cons_of_not_isBlank h text
  blank h text := ⟨' ', _, isBlank_space, squeeze_cons_of_isBlank h text⟩
  trimStart := trimStart_squeeze

namespace Respacing

variable {f : List Char → List Char} {c : Char}

/-- What passes over blanks is the same on a text without its leading blanks. -/
theorem apply_trimStart {β : Type} {g : List Char → β}
    (hg : ∀ c, isBlank c = true → ∀ text, g (c :: text) = g text) (text : List Char) :
    g (Text.trimStart text) = g text := by
  induction text with
  | nil => rfl
  | cons c text ih =>
    unfold Text.trimStart at ih ⊢
    cases hc : isBlank c with
    | true => rw [List.dropWhile_cons_of_pos hc, ih, hg c hc]
    | false => rw [List.dropWhile_cons_of_neg (by simp [hc])]

/-- **What passes over blanks does not see them changed.** -/
theorem apply_cons (hf : Respacing f) {β : Type} {g : List Char → β}
    (hg : ∀ c, isBlank c = true → ∀ text, g (c :: text) = g text) (h : isBlank c = true)
    (text : List Char) : g (f (c :: text)) = g (f text) := by
  have htrim : Text.trimStart (c :: text) = Text.trimStart text := List.dropWhile_cons_of_pos h
  rw [← apply_trimStart hg (f (c :: text)), hf.trimStart, htrim, ← hf.trimStart,
    apply_trimStart hg (f text)]

/-- Who asks for no blank finds the same first character. -/
theorem head?_any (hf : Respacing f) {belongs : Char → Bool}
    (h : ∀ c, belongs c = true → isBlank c = false) (text : List Char) :
    (f text).head?.any belongs = text.head?.any belongs := by
  cases text with
  | nil => rw [hf.nil]
  | cons c text =>
    cases hc : isBlank c with
    | true =>
      obtain ⟨d, rest, hd, heq⟩ := hf.blank hc text
      rw [heq, List.head?_cons, Option.any_some, List.head?_cons, Option.any_some,
        Bool.eq_false_iff.2 (not_belongs_of_isBlank h hd),
        Bool.eq_false_iff.2 (not_belongs_of_isBlank h hc)]
    | false =>
      rw [hf.cons hc]
      rfl

/-- The first character is the same, unless it is a blank. -/
theorem head?_eq_some_iff (hf : Respacing f) {d : Char} (hd : isBlank d = false)
    (text : List Char) : (f text).head? = some d ↔ text.head? = some d := by
  have hany : (f text).head?.any (· == d) = text.head?.any (· == d) := by
    apply hf.head?_any
    intro c hc
    rwa [beq_iff_eq.1 hc]
  rw [Bool.eq_iff_iff, Option.any_eq_true, Option.any_eq_true] at hany
  simpa using hany

/-- A run without blanks ends where it ended. -/
theorem takeWhile_dropWhile (hf : Respacing f) {belongs : Char → Bool}
    (h : ∀ c, belongs c = true → isBlank c = false) (text : List Char) :
    (f text).takeWhile belongs = text.takeWhile belongs ∧
      (f text).dropWhile belongs = f (text.dropWhile belongs) := by
  induction text with
  | nil => simp [hf.nil]
  | cons c text ih =>
    cases hc : isBlank c with
    | true =>
      -- a run ends in front of the blank
      have hneg := not_belongs_of_isBlank h hc
      obtain ⟨d, rest, hd, heq⟩ := hf.blank hc text
      rw [List.takeWhile_cons_of_neg hneg, List.dropWhile_cons_of_neg hneg, heq]
      have hneg' := not_belongs_of_isBlank h hd
      exact ⟨List.takeWhile_cons_of_neg hneg', List.dropWhile_cons_of_neg hneg'⟩
    | false =>
      rw [hf.cons hc]
      cases hbelongs : belongs c with
      | true =>
        simp only [List.takeWhile_cons_of_pos hbelongs, List.dropWhile_cons_of_pos hbelongs]
        exact ⟨congrArg _ ih.1, ih.2⟩
      | false =>
        have hneg : ¬ belongs c = true := by simp [hbelongs]
        simp only [List.takeWhile_cons_of_neg hneg, List.dropWhile_cons_of_neg hneg]
        exact ⟨trivial, (hf.cons hc text).symm⟩

/-- **A text that is spaced otherwise has the same normal form.** -/
theorem squeeze_eq (hf : Respacing f) (text : List Char) : squeeze (f text) = squeeze text := by
  -- a run of blanks is one space, and what is behind it is shorter
  induction hn : text.length using Nat.strong_induction_on generalizing text with
  | _ n ih =>
    cases text with
    | nil => rw [hf.nil]
    | cons c text =>
      rw [List.length_cons] at hn
      cases hc : isBlank c with
      | true =>
        obtain ⟨d, rest, hd, heq⟩ := hf.blank hc text
        have htrim := hf.trimStart (c :: text)
        have hleft : Text.trimStart (d :: rest) = Text.trimStart rest :=
          List.dropWhile_cons_of_pos hd
        have hright : Text.trimStart (c :: text) = Text.trimStart text :=
          List.dropWhile_cons_of_pos hc
        have hle : (Text.trimStart text).length ≤ text.length :=
          (List.dropWhile_sublist _).length_le
        rw [heq, hleft, hright] at htrim
        rw [heq, squeeze_cons_of_isBlank hd, htrim, squeeze_cons_of_isBlank hc,
          ih _ (by omega) _ rfl]
      | false =>
        rw [hf.cons hc, squeeze_cons_of_not_isBlank hc, squeeze_cons_of_not_isBlank hc,
          ih _ (by omega) _ rfl]

/-- A text that is spaced otherwise is collapsed as it was. -/
theorem collapse_eq (hf : Respacing f) (text : List Char) : collapse (f text) = collapse text := by
  rw [← collapse_squeeze, hf.squeeze_eq, collapse_squeeze]

end Respacing

end SchemaForge.Text
