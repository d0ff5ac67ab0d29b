import Mathlib
import SchemaForge.Text.Search

/-!
# What occurs in a text

A search looks for a part of a text, and what it finds is an infix.  A character that the part
does not have cuts the text in two as far as the part is concerned.

## Main results

* `occursIn_eq_true_iff` — what the search finds.
* `isInfix_append_cons` — a part on one side of a character that it does not have.
-/

namespace SchemaForge.Text

theorem isSome_after?_iff {lead text : List Char} :
    (after? lead text).isSome = true ↔ lead <+: text := by
  constructor
  · intro h
    obtain ⟨rest, hrest⟩ := Option.isSome_iff_exists.1 h
    exact ⟨rest, append_of_after? hrest⟩
  · rintro ⟨rest, rfl⟩
    rw [after?_append]
    rfl

theorem after?_eq_none {lead text : List Char} (h : ¬ lead <+: text) : after? lead text = none := by
  rw [← isSome_after?_iff] at h
  simpa using h

theorem occursIn_eq_true_iff {part text : List Char} :
    occursIn part text = true ↔ part <:+: text := by
  induction text with
  | nil => simp [occursIn]
  | cons c text ih => rw [occursIn, Bool.or_eq_true, isSome_after?_iff, ih, List.infix_cons_iff]

section

variable {part left right : List Char} {c : Char}

/-- A part without the character stands on one side of it. -/
theorem isInfix_append_cons (hc : c ∉ part) (h : part <:+: left ++ c :: right) :
    part <:+: left ∨ part <:+: right := by
  obtain ⟨front, behind, heq⟩ := h
  rcases List.append_eq_append_iff.1 heq with ⟨rest, hleft, -⟩ | ⟨rest, hfront, hrest⟩
  · exact .inl ⟨front, rest, hleft.symm⟩
  -- the part ends behind the left side, so the character is its first or in front of it
  rcases rest with _ | ⟨d, rest⟩
  · exact .inl ⟨front, [], by simpa using hfront⟩
  obtain ⟨rfl, hright⟩ := List.cons.inj hrest
  rcases List.append_eq_append_iff.1 hfront with ⟨mid, -, hpart⟩ | ⟨mid, -, hmid⟩
  · exact absurd (by rw [hpart]; simp) hc
  · rcases mid with _ | ⟨d, mid⟩
    · exact absurd (by rw [← List.nil_append part, ← hmid]; simp) hc
    · obtain ⟨rfl, hrest⟩ := List.cons.inj hmid
      exact .inr ⟨mid, behind, by rw [hright, hrest]; rfl⟩

/-- A part without the character, at the head of a text, ends in front of it. -/
theorem isPrefix_append_cons (hc : c ∉ part) (h : part <+: left ++ c :: right) :
    part <+: left := by
  have hleft : left ++ [c] <+: left ++ c :: right := ⟨right, by simp⟩
  rcases List.prefix_or_prefix_of_prefix h hleft with hpart | hpart
  · rcases List.prefix_concat_iff.1 hpart with rfl | hpart
    · exact absurd (by simp) hc
    · exact hpart
  · exact absurd (hpart.subset (by simp)) hc

/-- A part does not begin with a character that is not its first. -/
theorem isInfix_of_isInfix_cons (hc : part.head? ≠ some c) (hne : part ≠ [])
    (h : part <:+: c :: right) : part <:+: right := by
  rcases List.infix_cons_iff.1 h with hfirst | h
  · obtain ⟨d, part, rfl⟩ := List.exists_cons_of_ne_nil hne
    obtain ⟨rfl, -⟩ := List.cons_prefix_cons.1 hfirst
    exact absurd rfl hc
  · exact h

/-- A part does not begin among characters that are not its first. -/
theorem isInfix_of_isInfix_append (hleft : ∀ c ∈ left, part.head? ≠ some c) (hne : part ≠ [])
    (h : part <:+: left ++ right) : part <:+: right := by
  induction left with
  | nil => exact h
  | cons c left ih =>
    have hrest := isInfix_of_isInfix_cons (hleft c (List.mem_cons_self ..)) hne h
    exact ih (fun d hd => hleft d (List.mem_cons_of_mem _ hd)) hrest

/-- A part stands in a text as well without what has no character of it. -/
theorem isInfix_of_insert {mid : List Char} (hmid : ∀ c ∈ mid, c ∉ part)
    (h : part <:+: left ++ (mid ++ right)) : part <:+: left ++ right := by
  induction mid with
  | nil => exact h
  | cons c mid ih =>
    obtain ⟨hc, hrest⟩ := List.forall_mem_cons.1 hmid
    rcases isInfix_append_cons hc h with hleft | hright
    · exact hleft.trans (List.prefix_append left right).isInfix
    · exact ih hrest (hright.trans (List.suffix_append left _).isInfix)

/-- Two texts that go as far as the same character are the same. -/
theorem eq_of_append_cons_eq {behind : List Char} (hpart : c ∉ part) (hleft : c ∉ left)
    (h : part ++ c :: behind = left ++ c :: right) : part = left := by
  rcases List.append_eq_append_iff.1 h with ⟨mid, rfl, hmid⟩ | ⟨mid, rfl, hmid⟩
  · cases mid with
    | nil => simp
    | cons d mid =>
      obtain ⟨rfl, -⟩ := List.cons.inj hmid
      exact absurd (by simp) hleft
  · cases mid with
    | nil => simp
    | cons d mid =>
      obtain ⟨rfl, -⟩ := List.cons.inj hmid
      exact absurd (by simp) hpart

end

theorem firstSome?_of_eq_some {α : Type} {find : List Char → Option α} {text : List Char} {a : α}
    (h : find text = some a) : firstSome? find text = some a := by
  cases text with
  | nil => exact h
  | cons c text => rw [firstSome?, h, Option.some_or]

/-- Nothing is found where every place of a text is passed over. -/
theorem firstSome?_append {α : Type} {find : List Char → Option α} {left : List Char}
    (right : List Char) (h : ∀ s, s ≠ [] → s <:+ left → find (s ++ right) = none) :
    firstSome? find (left ++ right) = firstSome? find right := by
  induction left with
  | nil => rfl
  | cons c left ih =>
    have hhead : find (c :: left ++ right) = none :=
      h (c :: left) (List.cons_ne_nil c left) (List.suffix_refl _)
    rw [List.cons_append] at hhead ⊢
    rw [firstSome?, hhead, Option.none_or]
    exact ih fun s hne hs => h s hne (hs.trans (List.suffix_cons c left))

end SchemaForge.Text
