import SchemaForge.Proofs.Skeleton.ProjectName
import SchemaForge.Proofs.Text.Search
import SchemaForge.Skeleton.NewProject

/-!
# Filled templates

Templates mark their slots with two braces.  None of these is left in the text of a file: no value
of a slot has a brace, and no two braces stand side by side in the rest of a template, not even
when the slots are filled with nothing.

## Main definitions

* `slotMark` — what marks a slot.
* `Template.row` — the pieces of a template, line feeds included.

## Main results

* `isInfix_bare_of_isInfix_fill` — values bring in nothing that has no character of theirs.
* `not_slotMark_isInfix_text` — **no slot is left in a file of a project.**
-/

namespace SchemaForge.Skeleton

open Text

/-- Two braces mark a slot. -/
def slotMark : List Char :=
  ['\x7b', '\x7b']

/-- The pieces of a template, with a line feed behind each line. -/
def Template.row (t : Template) : List Piece :=
  t.flatMap fun pieces => pieces ++ [.text "\n"]

section

variable {value : Slot → String} {part : List Char}

/-- A filled template is its pieces, filled one by one. -/
theorem Template.toList_fill (t : Template) :
    (t.fill value).toList = t.row.flatMap fun piece => (piece.fill value).toList := by
  have hline (pieces : List Piece) :
      (String.join (pieces.map (Piece.fill value)) ++ "\n").toList =
        (pieces ++ [Piece.text "\n"]).flatMap fun piece => (piece.fill value).toList := by
    rw [String.toList_append, String.toList_join, List.flatMap_map, List.flatMap_append,
      List.flatMap_singleton]
    rfl
  rw [fill, ofLines, String.toList_join, List.map_map, List.flatMap_map, row, List.flatMap_assoc]
  exact congrArg (List.flatMap · t) (funext hline)

/-- Without their values, the pieces have all that has no character of the values. -/
theorem isInfix_bare_of_isInfix_fill (hvalue : ∀ slot, ∀ c ∈ (value slot).toList, c ∉ part)
    {row : List Piece} (front : List Char)
    (h : part <:+: front ++ row.flatMap fun piece => (piece.fill value).toList) :
    part <:+: front ++ row.flatMap fun piece => (piece.fill fun _ => "").toList := by
  induction row generalizing front with
  | nil => exact h
  | cons piece row ih =>
    rw [List.flatMap_cons] at h ⊢
    cases piece with
    | text s =>
      rw [← List.append_assoc] at h ⊢
      exact ih _ h
    | slot name => exact ih front (isInfix_of_insert (hvalue name) h)

end

/-! ### The files of a project -/

/-- No two braces stand side by side in the templates, not even when they are filled with
nothing. -/
theorem not_slotMark_isInfix_bare {f : SkeletonFile} (hf : f ∈ skeletonFiles) :
    ¬ slotMark <:+: f.template.row.flatMap fun piece => (piece.fill fun _ => "").toList := by
  have hall : (skeletonFiles.all fun f => !occursIn slotMark
      (f.template.row.flatMap fun piece => (piece.fill fun _ => "").toList)) = true := by
    decide +kernel
  rw [← occursIn_eq_true_iff]
  simpa using List.all_eq_true.1 hall f hf

theorem brace_not_mem_manager (m : PackageManager) :
    ∀ s ∈ [m.name, m.pinned, m.executable, m.install, m.run], '\x7b' ∉ s.toList := by
  cases m <;> decide

/-- No value of a slot has a brace. -/
theorem brace_not_mem_slotValue {name : String} (h : ∀ c ∈ name.toList, isPlain c = true)
    (manager : PackageManager) (slot : Slot) : '\x7b' ∉ (slotValue name manager slot).toList := by
  have hname {chars : List Char} (hchars : ∀ c ∈ chars, isPlain c = true) : '\x7b' ∉ chars :=
    fun hbrace => absurd (hchars '\x7b' hbrace) (by decide)
  cases slot with
  | projectName => exact hname h
  | projectNameSnake =>
    rw [slotValue, Name.snake, String.toList_ofList]
    exact hname (isPlain_snakeChars h)
  | _ => exact brace_not_mem_manager manager _ (by simp [slotValue])

/-- **No slot is left in a file of a project.** -/
theorem not_slotMark_isInfix_text {name : String} (h : ∀ c ∈ name.toList, isPlain c = true)
    (manager : PackageManager) {f : SkeletonFile} (hf : f ∈ skeletonFiles) :
    ¬ slotMark <:+: (f.text name manager).toList := by
  intro hmark
  rw [SkeletonFile.text, Template.toList_fill] at hmark
  refine not_slotMark_isInfix_bare hf (isInfix_bare_of_isInfix_fill ?_ [] hmark)
  intro slot c hc hpart
  have hbrace : c = '\x7b' := by simpa [slotMark] using hpart
  exact brace_not_mem_slotValue h manager slot (hbrace ▸ hc)

end SchemaForge.Skeleton
