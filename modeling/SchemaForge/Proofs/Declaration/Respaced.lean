import SchemaForge.Proofs.Declaration.Spelling
import SchemaForge.Proofs.Text.Respacing

/-!
# Fixed parts in a text that is spaced otherwise

Every part of a declaration that is of a fixed form is free of blanks or skips them.  So it is
read from a text that is spaced otherwise as it was read from the text, and leaves what was left,
spaced otherwise.  Two parts are not like that and are not here: the declared type of a binding
and the name of a table, which may have blanks among their characters.

## Main results

* `after?_respaced`, `mark?_respaced`, `run?_respaced` — the parts.
* `columnHead?_respaced`, `reference?_respaced` — the head of a column, and a reference.
* `columnWith_respaced` — **the calls behind a builder are the same.**
-/

namespace SchemaForge.Declaration

open Text

variable {f : List Char → List Char} {belongs : Char → Bool} {c : Char}

/-! ### Characters that are no blanks -/

theorem isBlank_eq_false_of_isColumnQuote (h : isColumnQuote c = true) : isBlank c = false := by
  simp only [isColumnQuote, Bool.or_eq_true, beq_iff_eq] at h
  rcases h with rfl | rfl <;> decide

theorem isBlank_eq_false_of_isQuote (h : isQuote c = true) : isBlank c = false := by
  simp only [isQuote, Bool.or_eq_true, beq_iff_eq] at h
  rcases h with (rfl | rfl) | rfl <;> decide

theorem isBlank_eq_false_of_isTypeChar (h : isTypeChar c = true) : isBlank c = false := by
  simp only [isTypeChar, Bool.or_eq_true, beq_iff_eq] at h
  rcases h with h | rfl
  · exact isBlank_eq_false_of_isWordChar h
  · decide

/-! ### Parts -/

theorem skipBlanks_respaced (hf : Respacing f) (text : List Char) :
    skipBlanks (f text) = f (skipBlanks text) :=
  hf.trimStart text

theorem skipBlank?_respaced (hf : Respacing f) (text : List Char) :
    skipBlank? (f text) = (skipBlank? text).map f := by
  cases text with
  | nil =>
    rw [hf.nil]
    rfl
  | cons c text =>
    cases hc : isBlank c with
    | true =>
      obtain ⟨d, rest, hd, heq⟩ := hf.blank hc text
      have hskip := skipBlanks_respaced hf (c :: text)
      have hright : skipBlanks (c :: text) = skipBlanks text := List.dropWhile_cons_of_pos hc
      have hleft : skipBlanks (d :: rest) = skipBlanks rest := List.dropWhile_cons_of_pos hd
      rw [heq, hleft, hright] at hskip
      rw [heq, skipBlank?, if_pos hd, hskip, skipBlank?, if_pos hc]
      rfl
    | false =>
      rw [hf.cons hc, skipBlank?, if_neg (by simp [hc]), skipBlank?, if_neg (by simp [hc])]
      rfl

theorem after?_respaced (hf : Respacing f) (lead : List Char) (h : lead.any isBlank = false)
    (text : List Char) : after? lead (f text) = (after? lead text).map f := by
  induction lead generalizing text with
  | nil => simp
  | cons l lead ih =>
    rw [List.any_cons, Bool.or_eq_false_iff] at h
    obtain ⟨hl, hlead⟩ := h
    cases text with
    | nil =>
      rw [hf.nil]
      rfl
    | cons c text =>
      cases hc : isBlank c with
      | true =>
        have hne : ∀ d, isBlank d = true → l ≠ d := by
          rintro d hd rfl
          exact absurd hd (by simp [hl])
        obtain ⟨d, rest, hd, heq⟩ := hf.blank hc text
        rw [heq, after?, if_neg (hne d hd), after?, if_neg (hne c hc)]
        rfl
      | false =>
        rw [hf.cons hc, after?, after?]
        split
        · exact ih hlead text
        · rfl

theorem mark?_respaced (hf : Respacing f) (mark : List Char) (h : mark.any isBlank = false)
    (text : List Char) : mark? mark (f text) = (mark? mark text).map f := by
  rw [mark?, skipBlanks_respaced hf, after?_respaced hf mark h, mark?]

theorem run?_respaced (hf : Respacing f) (h : ∀ c, belongs c = true → isBlank c = false)
    (text : List Char) :
    run? belongs (f text) = (run? belongs text).map fun (found, rest) => (found, f rest) := by
  obtain ⟨htake, hdrop⟩ := hf.takeWhile_dropWhile h text
  rw [run?, run?, htake, hdrop]
  split <;> rfl

theorem word?_respaced (hf : Respacing f) (text : List Char) :
    word? (f text) = (word? text).map fun (found, rest) => (found, f rest) :=
  run?_respaced hf (fun _ => isBlank_eq_false_of_isWordChar) text

theorem one?_respaced (hf : Respacing f) (h : ∀ c, belongs c = true → isBlank c = false)
    (text : List Char) : one? belongs (f text) = (one? belongs text).map f := by
  cases text with
  | nil =>
    rw [hf.nil]
    rfl
  | cons c text =>
    cases hc : isBlank c with
    | true =>
      obtain ⟨d, rest, hd, heq⟩ := hf.blank hc text
      rw [heq, one?, if_neg (not_belongs_of_isBlank h hd), one?,
        if_neg (not_belongs_of_isBlank h hc)]
      rfl
    | false =>
      rw [hf.cons hc, one?, one?]
      split <;> rfl

theorem skipOne_respaced (hf : Respacing f) (h : ∀ c, belongs c = true → isBlank c = false)
    (text : List Char) : skipOne belongs (f text) = f (skipOne belongs text) := by
  cases text with
  | nil =>
    rw [hf.nil]
    exact hf.nil.symm
  | cons c text =>
    cases hc : isBlank c with
    | true =>
      obtain ⟨d, rest, hd, heq⟩ := hf.blank hc text
      rw [skipOne, if_neg (not_belongs_of_isBlank h hc), heq, skipOne,
        if_neg (not_belongs_of_isBlank h hd)]
    | false =>
      rw [hf.cons hc, skipOne, skipOne]
      split
      · rfl
      · exact (hf.cons hc text).symm

theorem param?_respaced (hf : Respacing f) (text : List Char) :
    param? (f text) = (param? text).map fun (param, rest) => (param, f rest) := by
  rw [param?, param?, after?_respaced hf ['('] (by decide)]
  cases after? ['('] text with
  | none => exact word?_respaced hf text
  | some inside =>
    have hclose := mark?_respaced hf [')'] (by decide)
    simp only [Option.map_some, skipBlanks_respaced hf, word?_respaced hf, hclose,
      Option.bind_eq_bind, Option.bind_map, Option.map_bind, Function.comp_def, Option.pure_def]

/-! ### Heads and references -/

/-- **The head of a column is read past other blanks.** -/
theorem columnHead?_respaced (hf : Respacing f) (text : List Char) :
    columnHead? (f text) =
      (columnHead? text).map fun head => { head with rest := f head.rest } := by
  have hquote := skipOne_respaced hf fun _ => isBlank_eq_false_of_isColumnQuote
  have hcolon := mark?_respaced hf [':'] (by decide)
  have hdot := mark?_respaced hf ['.'] (by decide)
  have hopen := mark?_respaced hf ['('] (by decide)
  simp only [columnHead?, hquote, word?_respaced hf, hcolon, hdot, hopen, skipBlanks_respaced hf,
    Option.bind_eq_bind, Option.bind_map, Option.map_bind, Function.comp_def, Option.pure_def,
    Option.map_some]

theorem skipReturnType?_respaced (hf : Respacing f) (text : List Char) :
    skipReturnType? (f text) = (skipReturnType? text).map f := by
  have htype := run?_respaced hf fun _ => isBlank_eq_false_of_isTypeChar
  rw [skipReturnType?, skipReturnType?, after?_respaced hf [':'] (by decide)]
  cases after? [':'] text with
  | none => rfl
  | some type =>
    simp only [Option.map_some, skipBlanks_respaced hf, htype, Option.bind_eq_bind,
      Option.bind_map, Option.map_bind, Function.comp_def, Option.pure_def]

theorem referenceHere?_respaced (hf : Respacing f) (text : List Char) :
    referenceHere? (f text) = referenceHere? text := by
  have hcall := after?_respaced hf ".references(".toList (by decide)
  have hopen := mark?_respaced hf ['('] (by decide)
  have hclose := mark?_respaced hf [')'] (by decide)
  have harrow := after?_respaced hf "=>".toList (by decide)
  have hdot := mark?_respaced hf ['.'] (by decide)
  simp only [referenceHere?, hcall, hopen, hclose, harrow, hdot, word?_respaced hf,
    skipReturnType?_respaced hf, skipBlanks_respaced hf, Option.bind_eq_bind, Option.bind_map,
    Function.comp_def, Option.pure_def]

/-- Nothing is referred to at a blank. -/
theorem referenceHere?_of_isBlank (h : isBlank c = true) (text : List Char) :
    referenceHere? (c :: text) = none := by
  have hne : '.' ≠ c := by
    rintro rfl
    exact absurd h (by decide)
  have hcall : after? ".references(".toList (c :: text) = none := if_neg hne
  simp only [referenceHere?, hcall, Option.bind_eq_bind, Option.bind_none]

/-- **The first reference stands behind other blanks.** -/
theorem reference?_respaced (hf : Respacing f) (text : List Char) :
    reference? (f text) = reference? text := by
  have hblank : ∀ c, isBlank c = true → ∀ text, reference? (c :: text) = reference? text := by
    intro c hc text
    rw [reference?, firstSome?, referenceHere?_of_isBlank hc, Option.none_or, reference?]
  induction text with
  | nil => rw [hf.nil]
  | cons c text ih =>
    cases hc : isBlank c with
    | true => rw [hf.apply_cons hblank hc, ih, hblank c hc]
    | false =>
      have hhere := referenceHere?_respaced hf (c :: text)
      rw [hf.cons hc] at hhere ⊢
      rw [reference?, firstSome?, hhere, ← reference?, ih, reference?, reference?, firstSome?]

/-- **What has no blanks occurs between other blanks.** -/
theorem occursIn_respaced (hf : Respacing f) {part : List Char} (h : part.any isBlank = false)
    (text : List Char) : occursIn part (f text) = occursIn part text := by
  -- no occurrence begins at a blank
  have hblank : ∀ c, isBlank c = true → ∀ text, occursIn part (c :: text) = occursIn part text := by
    intro c hc text
    cases part with
    | nil => cases text <;> rfl
    | cons l part =>
      rw [List.any_cons, Bool.or_eq_false_iff] at h
      have hlead : after? (l :: part) (c :: text) = none := by
        refine if_neg ?_
        rintro rfl
        exact absurd hc (by simp [h.1])
      rw [occursIn, hlead, Option.isSome_none, Bool.false_or]
  induction text with
  | nil => rw [hf.nil]
  | cons c text ih =>
    cases hc : isBlank c with
    | true => rw [hf.apply_cons hblank hc, ih, hblank c hc]
    | false =>
      have hlead := after?_respaced hf part h (c :: text)
      rw [hf.cons hc] at hlead ⊢
      rw [occursIn, hlead, Option.isSome_map, ih, occursIn]

theorem hasCall_respaced (hf : Respacing f) (call : String)
    (h : call.toList.any isBlank = false) (modifiers : List Char) :
    hasCall (f modifiers) call = hasCall modifiers call :=
  occursIn_respaced hf h modifiers

/-- **The calls behind a builder are found between other blanks.** -/
theorem columnWith_respaced (hf : Respacing f) (name builder modifiers : List Char) :
    columnWith name builder (f modifiers) = columnWith name builder modifiers := by
  have hdefault : defaultMarkers.any (hasCall (f modifiers)) =
      defaultMarkers.any (hasCall modifiers) := by
    have hall : ∀ call ∈ defaultMarkers, call.toList.any isBlank = false := by
      simp only [defaultMarkers, List.forall_mem_cons]
      decide
    rw [Bool.eq_iff_iff, List.any_eq_true, List.any_eq_true]
    refine exists_congr fun call => and_congr_right fun hcall => ?_
    rw [hasCall_respaced hf call (hall call hcall)]
  have hcall := fun call h => hasCall_respaced hf call h modifiers
  rw [columnWith, hcall _ (by decide), hcall _ (by decide), hcall _ (by decide),
    hcall _ (by decide), hdefault, reference?_respaced hf, columnWith]

/-- What does not make a slash the mark of a comment does not, spaced otherwise. -/
theorem BreaksSlash.respaced (hf : Respacing f) {text : List Char} (h : BreaksSlash text) :
    BreaksSlash (f text) := by
  cases text with
  | nil => rwa [hf.nil]
  | cons c text =>
    cases hc : isBlank c with
    | true =>
      obtain ⟨d, rest, hd, heq⟩ := hf.blank hc text
      have hne : ∀ e, isBlank e = false → d ≠ e := by
        rintro e he rfl
        exact absurd hd (by simp [he])
      rw [heq]
      exact breaksSlash_cons.2 ⟨hne '/' (by decide), hne '*' (by decide)⟩
    | false =>
      rw [hf.cons hc]
      exact breaksSlash_cons.2 (breaksSlash_cons.1 h)

end SchemaForge.Declaration
