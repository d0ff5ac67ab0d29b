import Mathlib
import SchemaForge.Text.Position

/-!
# Positions counted

The position behind a text is stepped to character by character.  It can be counted as well: the
line is one more than the line feeds of the text, and the column one more than its characters
behind the last of these.

## Main definitions

* `placeBehind` — the position behind a text, counted.

## Main results

* `after_start` — **a position is counted.**
* `placeBehind_eq_append_iff` — behind more text is another position.
-/

namespace SchemaForge.Text

/-- The position behind a text: one line more than it has line feeds, and one column more than it
has characters behind the last of them. -/
def placeBehind (front : List Char) : Position :=
  ⟨1 + front.count '\n', 1 + (front.reverse.takeWhile (· ≠ '\n')).length⟩

/-- Positions are counted. -/
theorem after_start (front : List Char) : Position.start.after front = placeBehind front := by
  induction front using List.reverseRecOn with
  | nil => rfl
  | append_singleton front c ih =>
    rw [Position.after_append, ih, Position.after_cons, Position.after_nil, Position.next]
    by_cases hc : c = '\n'
    · subst hc
      simp [placeBehind, Nat.add_assoc]
    · simp [placeBehind, hc, Nat.add_comm]

theorem placeBehind_after (front text : List Char) :
    (placeBehind front).after text = placeBehind (front ++ text) := by
  rw [← after_start, ← Position.after_append, after_start]

/-- A last line is counted. -/
theorem takeWhile_reverse_line {line : List Char} (h : '\n' ∉ line) (lines : List Char) :
    ((lines ++ line).reverse.takeWhile (· ≠ '\n')).length =
      line.length + (lines.reverse.takeWhile (· ≠ '\n')).length := by
  have hline : ∀ c ∈ line.reverse, decide (c ≠ '\n') = true := fun c hc =>
    decide_eq_true fun hfeed => h (hfeed ▸ List.mem_reverse.1 hc)
  rw [List.reverse_append, List.takeWhile_append_of_pos hline, List.length_append,
    List.length_reverse]

/-- Behind more text is the same line if no line feed is in it. -/
theorem line_placeBehind_eq_append_iff {front text : List Char} :
    (placeBehind front).line = (placeBehind (front ++ text)).line ↔ '\n' ∉ text := by
  rw [placeBehind, placeBehind, List.count_append, ← List.count_eq_zero]
  dsimp only
  omega

/-- **Behind more text is another position**: another line, or another column of the same. -/
theorem placeBehind_eq_append_iff {front text : List Char} :
    placeBehind front = placeBehind (front ++ text) ↔ text = [] := by
  constructor
  · intro h
    have hline := line_placeBehind_eq_append_iff.1 (congrArg Position.line h)
    have hcolumn := congrArg Position.column h
    rw [placeBehind, placeBehind, takeWhile_reverse_line hline] at hcolumn
    dsimp only at hcolumn
    exact List.length_eq_zero_iff.1 (by omega)
  · rintro rfl
    rw [List.append_nil]

end SchemaForge.Text
