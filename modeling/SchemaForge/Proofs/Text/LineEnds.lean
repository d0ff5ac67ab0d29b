import SchemaForge.Proofs.Text.Respacing
import SchemaForge.Text.Position

/-!
# Two ways to end a line

A line ends in a line feed.  Some systems put a carriage return in front of it, which is a blank
like any other and takes a column of the line that it ends.

## Main definitions

* `withReturns` — a text with a carriage return in front of every line feed.

## Main results

* `respacing_withReturns` — the two texts differ in their blanks only.
* `after_withReturns` — **what is behind them has the same line and column.**
* `trim_withReturns` — trimming goes as far.
-/

namespace SchemaForge.Text

/-- A line feed behind a carriage return, and any other character by itself. -/
def returned (c : Char) : List Char :=
  if c = '\n' then ['\r', '\n'] else [c]

/-- A text with a carriage return in front of every line feed. -/
def withReturns (text : List Char) : List Char :=
  text.flatMap returned

/-- The same of a whole source. -/
def sourceWithReturns (source : String) : String :=
  String.ofList (withReturns source.toList)

theorem toList_sourceWithReturns (source : String) :
    (sourceWithReturns source).toList = withReturns source.toList :=
  String.toList_ofList

section

variable {c : Char} {text : List Char}

@[simp] theorem withReturns_nil : withReturns [] = [] := rfl

@[simp] theorem withReturns_newline (text : List Char) :
    withReturns ('\n' :: text) = '\r' :: '\n' :: withReturns text := rfl

theorem withReturns_cons (h : c ≠ '\n') (text : List Char) :
    withReturns (c :: text) = c :: withReturns text := by
  show returned c ++ withReturns text = _
  rw [returned, if_neg h]
  rfl

theorem withReturns_append (s t : List Char) :
    withReturns (s ++ t) = withReturns s ++ withReturns t :=
  List.flatMap_append

/-- A text of one line stays as it is. -/
theorem withReturns_of_not_mem (h : '\n' ∉ text) : withReturns text = text := by
  induction text with
  | nil => rfl
  | cons c text ih =>
    rw [List.mem_cons, not_or] at h
    rw [withReturns_cons (fun heq => h.1 heq.symm), ih h.2]

theorem withReturns_eq_nil_iff : withReturns text = [] ↔ text = [] := by
  constructor
  · intro h
    cases text with
    | nil => rfl
    | cons c text =>
      by_cases hc : c = '\n'
      · subst hc
        cases h
      · rw [withReturns_cons hc] at h
        cases h
  · rintro rfl
    rfl

/-- **The two texts differ in their blanks only.** -/
theorem respacing_withReturns : Respacing withReturns where
  nil := rfl
  cons := by
    intro c h text
    apply withReturns_cons
    rintro rfl
    exact absurd h (by decide)
  blank := by
    intro c h text
    by_cases hc : c = '\n'
    · subst hc
      exact ⟨'\r', _, by decide, rfl⟩
    · exact ⟨c, _, h, withReturns_cons hc text⟩
  trimStart := by
    intro text
    induction text with
    | nil => rfl
    | cons c text ih =>
      unfold trimStart at ih ⊢
      by_cases hc : c = '\n'
      · subst hc
        exact ih
      · rw [withReturns_cons hc]
        cases hblank : isBlank c with
        | true => rw [List.dropWhile_cons_of_pos hblank, ih, List.dropWhile_cons_of_pos hblank]
        | false =>
          have hneg : ¬ isBlank c = true := by simp [hblank]
          rw [List.dropWhile_cons_of_neg hneg, List.dropWhile_cons_of_neg hneg,
            withReturns_cons hc]

theorem trimEnd_withReturns (text : List Char) :
    trimEnd (withReturns text) = withReturns (trimEnd text) := by
  induction text with
  | nil => rfl
  | cons c text ih =>
    by_cases htext : trimEnd text = []
    · -- the text behind is nothing but blanks
      have hnil : trimEnd (withReturns text) = [] := by rw [ih, htext, withReturns_nil]
      by_cases hc : c = '\n'
      · subst hc
        rw [withReturns_newline, trimEnd, trimEnd, hnil, trimEnd, htext]
        rfl
      · rw [withReturns_cons hc, trimEnd, hnil, trimEnd, htext]
        cases isBlank c with
        | true => rfl
        | false => exact (withReturns_cons hc []).symm
    · have hne : trimEnd (withReturns text) ≠ [] := by
        rw [ih]
        exact mt withReturns_eq_nil_iff.1 htext
      rw [trimEnd_cons_of_ne_nil c htext]
      by_cases hc : c = '\n'
      · subst hc
        have hne' : trimEnd ('\n' :: withReturns text) ≠ [] := by
          rw [trimEnd_cons_of_ne_nil '\n' hne]
          exact List.cons_ne_nil _ _
        rw [withReturns_newline, trimEnd_cons_of_ne_nil '\r' hne', trimEnd_cons_of_ne_nil '\n' hne,
          ih, withReturns_newline]
      · rw [withReturns_cons hc, trimEnd_cons_of_ne_nil c hne, ih, withReturns_cons hc]

/-- Trimming goes as far. -/
theorem trim_withReturns (text : List Char) :
    trim (withReturns text) = withReturns (trim text) := by
  rw [trim, respacing_withReturns.trimStart, trimEnd_withReturns, trim]

/-- **What is behind a text has the same line and column.** -/
theorem after_withReturns (p : Position) (text : List Char) :
    p.after (withReturns text) = p.after text := by
  induction text generalizing p with
  | nil => rfl
  | cons c text ih =>
    by_cases hc : c = '\n'
    · subst hc
      show ((p.next '\r').next '\n').after (withReturns text) = (p.next '\n').after text
      rw [ih]
      rfl
    · rw [withReturns_cons hc, Position.after_cons, ih, Position.after_cons]

end

end SchemaForge.Text
