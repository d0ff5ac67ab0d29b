import SchemaForge.Proofs.Declaration.Headers
import SchemaForge.Proofs.Declaration.Readings

/-!
# The order of what is left out

A reader goes through a text from left to right: through the headers in the order of their
places, and through the entries of an object before it looks for the next header.  So the lines of
what it leaves out do not decrease.  An object that is never closed leaves out its header alone,
and the headers behind that one stand on later lines or on the same.

## Main definitions

* `Ascends` — numbers that do not decrease, between two bounds.

## Main results

* `ascends_entries` — the lines of the entries of an object.
* `pairwise_skipped_ofText` — **the lines of what a text leaves out do not decrease.**
-/

namespace SchemaForge.Text

theorem Position.line_le_next (p : Position) (c : Char) : p.line ≤ (p.next c).line := by
  rw [next]
  split
  · exact Nat.le_succ _
  · exact Nat.le_refl _

theorem Position.line_le_after (p : Position) (text : List Char) :
    p.line ≤ (p.after text).line := by
  induction text generalizing p with
  | nil => exact Nat.le_refl _
  | cons c text ih => exact (p.line_le_next c).trans (ih (p.next c))

end SchemaForge.Text

namespace SchemaForge.Declaration

open Text

/-! ### Numbers that do not decrease -/

/-- Numbers that do not decrease, and lie between two bounds. -/
inductive Ascends : Nat → Nat → List Nat → Prop where
  /-- Between bounds in order there may be none. -/
  | nil {low high : Nat} (h : low ≤ high) : Ascends low high []
  /-- The first is a lower bound of the others. -/
  | cons {low high n : Nat} {ns : List Nat} (h : low ≤ n) (rest : Ascends n high ns) :
      Ascends low high (n :: ns)

namespace Ascends

variable {low mid high : Nat} {ns ms : List Nat}

theorem of_le (hle : low ≤ mid) (h : Ascends mid high ns) : Ascends low high ns := by
  cases h with
  | nil h => exact .nil (hle.trans h)
  | cons h rest => exact .cons (hle.trans h) rest

theorem append (h : Ascends low mid ns) (h' : Ascends mid high ms) :
    Ascends low high (ns ++ ms) := by
  induction h with
  | nil hle => exact h'.of_le hle
  | cons hle _ ih => exact .cons hle (ih h')

theorem sublist (hsub : ms.Sublist ns) (h : Ascends low high ns) : Ascends low high ms := by
  induction hsub generalizing low with
  | slnil => exact h
  | cons n _ ih =>
    cases h with
    | cons hle rest => exact (ih rest).of_le hle
  | cons_cons n _ ih =>
    cases h with
    | cons hle rest => exact .cons hle (ih rest)

theorem low_le (h : Ascends low high ns) : ∀ n ∈ ns, low ≤ n := by
  induction h with
  | nil => simp
  | cons hle _ ih => exact List.forall_mem_cons.2 ⟨hle, fun n hn => hle.trans (ih n hn)⟩

theorem pairwise (h : Ascends low high ns) : ns.Pairwise (· ≤ ·) := by
  induction h with
  | nil => exact .nil
  | cons _ rest ih => exact List.pairwise_cons.2 ⟨rest.low_le, ih⟩

end Ascends

/-! ### Entries -/

/-- The text of groups of chunks with commas between them. -/
def groupsText (groups : List (List Chunk)) : List Char :=
  [','].intercalate (groups.map fun group => group.flatMap Chunk.text)

theorem groupsText_consFirst (chunk : Chunk) (groups : List (List Chunk)) :
    groupsText (consFirst chunk groups) = chunk.text ++ groupsText groups := by
  cases groups with
  | nil => simp [consFirst, groupsText]
  | cons group groups =>
    cases groups with
    | nil => simp [consFirst, groupsText]
    | cons other groups => simp [consFirst, groupsText, List.intercalate_cons_cons]

theorem splitCommas_ne_nil (depth : Nat) (cs : List Chunk) : splitCommas depth cs ≠ [] := by
  cases cs with
  | nil => exact List.cons_ne_nil _ _
  | cons c cs =>
    rw [splitCommas]
    split
    · exact List.cons_ne_nil _ _
    · cases splitCommas (c.depthAfter depth) cs <;> exact List.cons_ne_nil _ _

/-- Cutting chunks apart at their commas keeps their text. -/
theorem groupsText_splitCommas (depth : Nat) (cs : List Chunk) :
    groupsText (splitCommas depth cs) = cs.flatMap Chunk.text := by
  induction cs generalizing depth with
  | nil => simp [splitCommas, groupsText]
  | cons c cs ih =>
    rw [splitCommas]
    by_cases hcomma : c = .char ',' ∧ depth = 0
    · rw [if_pos hcomma, hcomma.1, List.flatMap_cons, ← ih 0]
      obtain ⟨group, groups, hsplit⟩ := List.exists_cons_of_ne_nil (splitCommas_ne_nil 0 cs)
      rw [hsplit]
      simp [groupsText, List.intercalate_cons_cons, Chunk.text]
    · rw [if_neg hcomma, groupsText_consFirst, ih, List.flatMap_cons]

/-- What is not filler stands in the group. -/
theorem ascends_firstPosition? {p q : Position} {group : List Chunk}
    (h : firstPosition? p group = some q) :
    Ascends p.line (p.after (group.flatMap Chunk.text)).line [q.line] := by
  induction group generalizing p with
  | nil => cases h
  | cons c group ih =>
    rw [firstPosition?] at h
    split at h
    · rw [List.flatMap_cons, Position.after_append]
      exact (ih h).of_le (p.line_le_after c.text)
    · cases h
      exact .cons (Nat.le_refl _) (.nil (Position.line_le_after _ _))

theorem firstPosition?_of_entryAt {p : Position} {group : List Chunk} {e : Entry}
    (h : entryAt p group = some e) : firstPosition? p group = some e.position := by
  rw [entryAt] at h
  split at h
  · cases h
  · next hposition _ =>
    cases h
    exact hposition
  · cases h

/-- A group with a chunk that is no filler has a place. -/
theorem exists_firstPosition?_eq_some {group : List Chunk}
    (h : ∃ k ∈ group, k.isFiller = false) (p : Position) :
    ∃ place, firstPosition? p group = some place := by
  induction group generalizing p with
  | nil =>
    obtain ⟨k, hk, -⟩ := h
    exact absurd hk List.not_mem_nil
  | cons k group ih =>
    rw [firstPosition?]
    by_cases hk : k.isFiller = true
    · rw [if_pos hk]
      obtain ⟨d, hd, hfiller⟩ := h
      rcases List.mem_cons.1 hd with rfl | hd
      · rw [hk] at hfiller
        cases hfiller
      · exact ih ⟨d, hd, hfiller⟩ _
    · rw [if_neg hk]
      exact ⟨p, rfl⟩

theorem ascends_entryAt (p : Position) (group : List Chunk) :
    Ascends p.line (p.after (group.flatMap Chunk.text)).line
      ((entryAt p group).toList.map (·.position.line)) := by
  cases hentry : entryAt p group with
  | none => exact .nil (p.line_le_after _)
  | some e => exact ascends_firstPosition? (firstPosition?_of_entryAt hentry)

theorem ascends_groupEntries (p : Position) (groups : List (List Chunk)) :
    Ascends p.line (p.after (groupsText groups)).line
      ((groupEntries p groups).map (·.position.line)) := by
  induction groups generalizing p with
  | nil => exact .nil (p.line_le_after _)
  | cons group groups ih =>
    rw [groupEntries, List.map_append]
    cases groups with
    | nil =>
      have htext : groupsText [group] = group.flatMap Chunk.text := by
        simp [groupsText]
      rw [htext]
      exact (ascends_entryAt p group).append (.nil (Nat.le_refl _))
    | cons other groups =>
      have hgroup := ascends_entryAt p group
      have hcomma := (p.after (group.flatMap Chunk.text)).line_le_next ','
      have hothers := (ih ((p.after (group.flatMap Chunk.text)).next ',')).of_le hcomma
      have htext : groupsText (group :: other :: groups) =
          group.flatMap Chunk.text ++ ',' :: groupsText (other :: groups) := by
        simp [groupsText, List.intercalate_cons_cons]
      rw [htext, Position.after_append, Position.after_cons]
      exact hgroup.append hothers

/-- The lines of the entries of an object do not decrease, and lie in the object. -/
theorem ascends_entries (p : Position) (inside : List Chunk) :
    Ascends p.line (p.after (inside.flatMap Chunk.text)).line
      ((entries p inside).map (·.position.line)) := by
  rw [entries, ← groupsText_splitCommas 0 inside]
  exact ascends_groupEntries p _

/-- The entries that are left out are some of the entries, in their order. -/
theorem Match.lines_unreadEntries_sublist (m : Match) (es : List Entry) :
    ((m.unreadEntries es).map (·.position.line)).Sublist (es.map (·.position.line)) := by
  induction es with
  | nil => exact List.Sublist.slnil
  | cons e es ih =>
    by_cases hcolumn : (columnOf? m.header.param e.text).isSome = true
    · have hunread : m.unreadEntries (e :: es) = m.unreadEntries es := by
        simp [unreadEntries, hcolumn]
      rw [hunread]
      exact ih.cons _
    · have hunread : m.unreadEntries (e :: es) = m.unrecognised e :: m.unreadEntries es := by
        simp [unreadEntries, hcolumn]
      rw [hunread]
      exact ih.cons_cons _

/-! ### Headers -/

theorem isPrefix_of_splitClosing {depth : Nat} {cs inside rest : List Chunk}
    (h : splitClosing depth cs = some (inside, rest)) : inside <+: cs := by
  have hmap : ∀ {c : Chunk} {cs inside : List Chunk} {found : Option (List Chunk × List Chunk)},
      (found.map fun split => (c :: split.1, split.2)) = some (inside, rest) →
      (∀ {i}, found = some (i, rest) → i <+: cs) → inside <+: c :: cs := by
    intro c cs inside found hfound hprefix
    obtain ⟨⟨i, r⟩, hsome, heq⟩ := Option.map_eq_some_iff.1 hfound
    obtain ⟨rfl, rfl⟩ := Prod.mk.inj heq
    exact List.cons_prefix_cons.2 ⟨rfl, hprefix hsome⟩
  fun_induction splitClosing depth cs generalizing inside with
  | case1 => cases h
  | case2 depth c cs hopening ih => exact hmap h ih
  | case3 c cs _ hclosing =>
    cases h
    exact List.nil_prefix
  | case4 c cs _ hclosing depth ih => exact hmap h ih
  | case5 depth c cs _ _ ih => exact hmap h ih
  | case6 depth t cs ih => exact hmap h ih
  | case7 depth t cs ih => exact hmap h ih
  | case8 => cases h
  | case9 => cases h

section

variable {whole : List Char}

theorem line_positionAt_le {n k : Nat} (h : n ≤ k) :
    (positionAt whole n).line ≤ (positionAt whole k).line := by
  obtain ⟨d, rfl⟩ := Nat.exists_eq_add_of_le h
  rw [positionAt, positionAt, List.take_add, Position.after_append]
  exact Position.line_le_after _ _

theorem line_positionAt_le_line_after (n : Nat) :
    (positionAt whole n).line ≤ (Position.start.after whole).line := by
  have h := (positionAt whole n).line_le_after (whole.drop n)
  rwa [positionAt, ← Position.after_append, List.take_append_drop] at h

/-- The lines of what is left out behind a place do not decrease.  The headers that are looked
for stand behind `resume`, and so behind that place. -/
theorem ascends_readingsFrom {ms : List Match} (hin : ∀ m ∈ ms, m.IsIn whole)
    (horder : ms.Pairwise fun m n => m.bodyStart ≤ n.start) {resume place : Nat}
    (hplace : ∀ m ∈ ms, resume ≤ m.start → place ≤ m.start) :
    Ascends (positionAt whole place).line (Position.start.after whole).line
      ((DeclaredTables.collect (readingsFrom resume ms)).skipped.map (·.position.line)) := by
  induction ms generalizing resume place with
  | nil => exact .nil (line_positionAt_le_line_after place)
  | cons m ms ih =>
    have hin' := fun n hn => hin n (List.mem_cons_of_mem m hn)
    obtain ⟨hfirst, horder'⟩ := List.pairwise_cons.1 horder
    rw [readingsFrom]
    by_cases hstart : m.start < resume
    · rw [if_pos hstart]
      exact ih hin' horder' fun n hn => hplace n (List.mem_cons_of_mem m hn)
    rw [if_neg hstart]
    have hm := hin m (List.mem_cons_self ..)
    have hle : place ≤ m.start := hplace m (List.mem_cons_self ..) (Nat.not_lt.1 hstart)
    cases hclosing : splitClosing 0 (chunks m.header.rest) with
    | none =>
      dsimp only
      rw [DeclaredTables.collect_unclosed, List.map_cons]
      have hposition : m.unterminated.position = positionAt whole m.start := hm.position
      rw [hposition]
      refine .cons (line_positionAt_le hle) (ih hin' horder' fun n hn _ => ?_)
      exact (Nat.le_add_right _ _).trans (hfirst n hn)
    | some split =>
      obtain ⟨inside, behind⟩ := split
      dsimp only
      rw [DeclaredTables.collect_readingOf, List.map_append]
      -- the entries stand in the object, and what is behind them starts at its end
      obtain ⟨left, hleft⟩ := isPrefix_of_splitClosing hclosing
      have hinside : whole.drop m.bodyStart =
          inside.flatMap Chunk.text ++ left.flatMap Chunk.text := by
        rw [hm.drop_bodyStart, ← List.flatMap_append, hleft, chunks_flatMap_text]
      have hend : m.bodyPosition.after (inside.flatMap Chunk.text) =
          positionAt whole (m.bodyStart + (inside.flatMap Chunk.text).length) := by
        rw [hm.bodyPosition_eq]
        exact (positionAt_add_length hinside).symm
      have hbody : (positionAt whole place).line ≤ m.bodyPosition.line := by
        rw [hm.bodyPosition_eq]
        exact line_positionAt_le (hle.trans (Nat.le_add_right _ _))
      have hentries := ascends_entries m.bodyPosition inside
      rw [hend] at hentries
      have hunread := (hentries.sublist (m.lines_unreadEntries_sublist _)).of_le hbody
      exact hunread.append (ih hin' horder' fun n _ hn => hn)

end

/-- **The lines of what a text leaves out do not decrease.** -/
theorem pairwise_skipped_ofText (text : List Char) :
    ((DeclaredTables.ofText text).skipped.map (·.position.line)).Pairwise (· ≤ ·) := by
  have h : Ascends (positionAt text 0).line (Position.start.after text).line
      ((DeclaredTables.ofText text).skipped.map (·.position.line)) :=
    ascends_readingsFrom Match.isIn_of_mem_headerMatches (pairwise_headerMatches text)
      fun m _ _ => Nat.zero_le m.start
  exact h.pairwise

end SchemaForge.Declaration
