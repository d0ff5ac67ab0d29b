import SchemaForge.Proofs.Declaration.EntryText
import SchemaForge.Proofs.Declaration.Inside

/-!
# Parts of entries

An entry is a row of parts: words, marks, and closed text in brackets, with gaps of blanks and
comments in front of them.  Every part is cut into chunks by itself, whatever stands behind it; so
what is searched for in an entry, and what is read of it, is put together from its parts.

## Main definitions

* `IsGap` — blanks and comments.
* `IsApart` — a closed text that is cut into chunks by itself.
* `commasIn` — the commas of a text that are outside its brackets.
* `Part`, `partsText` — a part with the gap in front of it, and a row of parts.

## Main results

* `isApart_partsText` — a row of parts is closed.
* `commasIn_partsText` — **the outer commas of a row are those of its parts.**
* `withoutComments_partsText` — a row without its comments is a row of parts again.
-/

namespace SchemaForge.Declaration

open Text

/-! ### Gaps -/

/-- Whether a chunk may stand in a gap: a blank, or a comment that ends. -/
def Chunk.isGap : Chunk → Bool
  | char c => isBlank c
  | literal _ => false
  | comment t => (comment t).isEnded
  | openLiteral _ => false
  | openComment _ => false

/-- Blanks and comments, each of which ends. -/
def IsGap (text : List Char) : Prop :=
  ∀ k ∈ chunks text, k.isGap = true

instance (text : List Char) : Decidable (IsGap text) :=
  inferInstanceAs (Decidable (∀ k ∈ chunks text, k.isGap = true))

section

variable {text gap rest : List Char} {k : Chunk} {c : Char}

theorem isGap_nil : IsGap [] := by
  simp [IsGap]

theorem Chunk.isEnded_of_isGap (h : k.isGap = true) : k.isEnded = true := by
  cases k with
  | char c => rfl
  | comment t => exact h
  | _ => cases h

theorem isOuter_of_isBlank (h : isBlank c = true) : isOuter c = true := by
  have hall : ∀ n ∈ blanks, isOuter (Char.ofNat n) = true := by decide +kernel
  have hc := hall c.toNat (toNat_mem_blanks h)
  rwa [Char.ofNat_toNat] at hc

/-- A gap leaves the depth. -/
theorem Chunk.depthBehind?_of_isGap (h : k.isGap = true) (depth : Nat) :
    k.depthBehind? depth = some depth := by
  cases k with
  | char c => exact depthBehind?_of_isOuter (isOuter_of_isBlank h) depth
  | comment t => rfl
  | _ => cases h

theorem depthThrough_of_isGap {cs : List Chunk} (h : ∀ k ∈ cs, k.isGap = true) (depth : Nat) :
    depthThrough depth cs = some depth := by
  induction cs with
  | nil => rfl
  | cons k cs ih =>
    obtain ⟨hk, hcs⟩ := List.forall_mem_cons.1 h
    rw [depthThrough, Chunk.depthBehind?_of_isGap hk]
    exact ih hcs

theorem outerCommas_of_isGap {cs : List Chunk} (h : ∀ k ∈ cs, k.isGap = true) (depth : Nat) :
    outerCommas depth cs = 0 := by
  induction cs with
  | nil => rfl
  | cons k cs ih =>
    obtain ⟨hk, hcs⟩ := List.forall_mem_cons.1 h
    have hcomma : k ≠ .char ',' := by
      rintro rfl
      revert hk
      decide
    have hdepth : k.depthAfter depth = depth :=
      Chunk.depthAfter_of_depthBehind? (Chunk.depthBehind?_of_isGap hk depth) 0
    rw [outerCommas, if_neg fun h => hcomma h.1, hdepth, ih hcs]

theorem IsGap.isClosed (h : IsGap gap) : IsClosed gap :=
  ⟨fun k hk => Chunk.isEnded_of_isGap (h k hk), depthThrough_of_isGap h 0⟩

/-- A chunk of a gap is read as a blank. -/
theorem Chunk.isBlank_bareText_of_isGap (h : k.isGap = true) :
    ∀ c ∈ k.bareText, isBlank c = true := by
  intro c hc
  cases k with
  | char d =>
    rw [List.mem_singleton.1 hc]
    exact h
  | comment t =>
    rw [List.mem_singleton.1 hc]
    decide
  | _ => cases h

/-- A gap without its comments is blank. -/
theorem IsGap.isBlank_withoutComments (h : IsGap gap) :
    ∀ c ∈ withoutComments gap, isBlank c = true := by
  intro c hc
  obtain ⟨k, hk, hc⟩ := List.mem_flatMap.1 hc
  exact Chunk.isBlank_bareText_of_isGap (h k hk) c hc

end

/-! ### Texts that stand apart -/

/-- A closed text that is cut into chunks by itself, whatever stands behind it. -/
structure IsApart (text : List Char) : Prop where
  /-- The text is closed. -/
  closed : IsClosed text
  /-- What stands behind the text is cut into chunks by itself too. -/
  chunks_append (rest : List Char) : chunks (text ++ rest) = chunks text ++ chunks rest

namespace IsApart

variable {s t gap inside : List Char}

theorem of_isOuter (h : ∀ c ∈ s, isOuter c = true) : IsApart s where
  closed := (isEntryText_of_isOuter h).isClosed
  chunks_append rest := by
    have hown := chunks_plain_append (isPlain_of_isOuter h) []
    rw [List.append_nil, chunks_nil, List.append_nil] at hown
    rw [chunks_plain_append (isPlain_of_isOuter h), hown]

theorem append (hs : IsApart s) (ht : IsApart t) : IsApart (s ++ t) where
  closed := by
    refine ⟨?_, ?_⟩
    · rw [hs.chunks_append]
      exact List.forall_mem_append.2 ⟨hs.closed.ended, ht.closed.ended⟩
    · rw [hs.chunks_append, depthThrough_append hs.closed.balanced]
      exact ht.closed.balanced
  chunks_append rest := by
    rw [List.append_assoc, hs.chunks_append, ht.chunks_append, hs.chunks_append,
      List.append_assoc]

/-- A gap stands apart in front of a text that makes no slash the mark of a comment. -/
theorem gap_append (hgap : IsGap gap) (ht : IsApart t) (hne : t ≠ []) (hbreaks : BreaksSlash t) :
    IsApart (gap ++ t) ∧ chunks (gap ++ t) = chunks gap ++ chunks t := by
  have hchunks : ∀ rest, chunks (gap ++ (t ++ rest)) = chunks gap ++ (chunks t ++ chunks rest) := by
    intro rest
    have hrest : BreaksSlash (t ++ rest) := by
      obtain ⟨c, t, rfl⟩ := List.exists_cons_of_ne_nil hne
      exact breaksSlash_cons.2 (breaksSlash_cons.1 hbreaks)
    rw [Declaration.chunks_append hgap.isClosed.ended hrest, ht.chunks_append]
  have hown := hchunks []
  rw [List.append_nil, chunks_nil, List.append_nil] at hown
  refine ⟨⟨⟨?_, ?_⟩, fun rest => ?_⟩, hown⟩
  · rw [hown]
    exact List.forall_mem_append.2 ⟨hgap.isClosed.ended, ht.closed.ended⟩
  · rw [hown, depthThrough_append hgap.isClosed.balanced]
    exact ht.closed.balanced
  · rw [hown, List.append_assoc, hchunks, List.append_assoc]

/-- The chunks of closed text between two plain characters. -/
theorem chunks_between (hinside : IsClosed inside) {a b : Char}
    (ha : isQuote a = false ∧ a ≠ '/') (hb : isQuote b = false ∧ b ≠ '/' ∧ b ≠ '*')
    (rest : List Char) :
    chunks (a :: (inside ++ b :: rest)) =
      .char a :: (chunks inside ++ .char b :: chunks rest) := by
  rw [chunks_cons, chunk_eq_char ha.1 (.inl ha.2),
    Declaration.chunks_append hinside.ended (breaksSlash_cons.2 hb.2), chunks_cons,
    chunk_eq_char hb.1 (.inl hb.2.1)]

/-- Closed text in parentheses stands apart. -/
theorem parenthesised (hinside : IsClosed inside) : IsApart ('(' :: (inside ++ [')'])) where
  closed := (IsEntryText.bracketed hinside .nil).isClosed
  chunks_append rest := by
    rw [List.cons_append, List.append_assoc, List.singleton_append, chunks_bracketed hinside,
      chunks_bracketed hinside, chunks_nil, List.cons_append, List.append_assoc,
      List.singleton_append]

theorem chunks_angled (hinside : IsClosed inside) (rest : List Char) :
    chunks ('<' :: (inside ++ '>' :: rest)) =
      .char '<' :: (chunks inside ++ .char '>' :: chunks rest) :=
  chunks_between hinside (by decide) (by decide) rest

/-- Closed text in angle brackets stands apart. -/
theorem angled (hinside : IsClosed inside) : IsApart ('<' :: (inside ++ ['>'])) where
  closed := by
    refine ⟨?_, ?_⟩
    · rw [chunks_angled hinside]
      refine List.forall_mem_cons.2 ⟨rfl, List.forall_mem_append.2 ⟨hinside.ended, ?_⟩⟩
      exact List.forall_mem_cons.2 ⟨rfl, by simp⟩
    · rw [chunks_angled hinside, depthThrough]
      show depthThrough 0 _ = _
      rw [depthThrough_append hinside.balanced, chunks_nil]
      rfl
  chunks_append rest := by
    rw [List.cons_append, List.append_assoc, List.singleton_append, chunks_angled hinside,
      chunks_angled hinside, chunks_nil, List.cons_append, List.append_assoc,
      List.singleton_append]

theorem withoutComments_append (hs : IsApart s) (t : List Char) :
    withoutComments (s ++ t) = withoutComments s ++ withoutComments t := by
  rw [withoutComments, hs.chunks_append, List.flatMap_append, withoutComments, withoutComments]

end IsApart

/-! ### Outer commas -/

/-- The commas of a text that are outside all of its brackets. -/
def commasIn (text : List Char) : Nat :=
  outerCommas 0 (chunks text)

section

variable {cs : List Chunk} {k j : Nat} {text inside : List Char}

theorem outerCommas_cons_of_ne {c : Chunk} (hcomma : c ≠ .char ',') (depth : Nat) :
    outerCommas depth (c :: cs) = outerCommas (c.depthAfter depth) cs := by
  rw [outerCommas, if_neg fun h => hcomma h.1, Nat.zero_add]

/-- No comma inside brackets is outside all of them. -/
theorem outerCommas_succ (h : depthThrough k cs = some j) : outerCommas (k + 1) cs = 0 := by
  induction cs generalizing k with
  | nil => rfl
  | cons c cs ih =>
    obtain ⟨i, hi, hcs⟩ := Option.bind_eq_some_iff.1 h
    rw [outerCommas, if_neg fun hcomma => absurd hcomma.2 (Nat.succ_ne_zero k),
      Chunk.depthAfter_of_depthBehind? hi 1, ih hcs]

theorem commasIn_of_isOuter (h : ∀ c ∈ text, isOuter c = true) : commasIn text = 0 := by
  induction text with
  | nil =>
    rw [commasIn, chunks_nil]
    rfl
  | cons c text ih =>
    obtain ⟨hc, htext⟩ := List.forall_mem_cons.1 h
    have hcomma : Chunk.char c ≠ .char ',' := by
      rintro ⟨rfl⟩
      revert hc
      decide
    have hdepth := Chunk.depthAfter_of_depthBehind? (depthBehind?_of_isOuter hc 0) 0
    rw [commasIn, chunks_cons_of_isOuter hc, outerCommas_cons_of_ne hcomma, hdepth]
    exact ih htext

theorem commasIn_parenthesised (h : IsClosed inside) : commasIn ('(' :: (inside ++ [')'])) = 0 := by
  rw [commasIn, chunks_bracketed h, chunks_nil, outerCommas_cons_of_ne (by decide)]
  show outerCommas 1 _ = 0
  rw [outerCommas_append (depthThrough_succ h.balanced), outerCommas_succ h.balanced]
  rfl

/-- Angle brackets are no brackets to the search for commas. -/
theorem commasIn_angled (h : IsClosed inside) :
    commasIn ('<' :: (inside ++ ['>'])) = commasIn inside := by
  rw [commasIn, IsApart.chunks_angled h, chunks_nil, outerCommas_cons_of_ne (by decide)]
  show outerCommas 0 _ = _
  rw [outerCommas_append h.balanced]
  rfl

end

/-! ### Rows of parts -/

/-- A part of an entry, with the gap in front of it. -/
structure Part where
  /-- Blanks and comments. -/
  gap : List Char
  /-- The part itself. -/
  own : List Char

/-- The text of a row of parts. -/
def partsText (parts : List Part) : List Char :=
  parts.flatMap fun part => part.gap ++ part.own

namespace Part

/-- The part as it is read inside an entry. -/
def bare (part : Part) : Part :=
  ⟨withoutComments part.gap, withoutComments part.own⟩

/-- The gap is one, and the part stands apart with something in it that makes no slash the mark of
a comment. -/
structure WellFormed (part : Part) : Prop where
  /-- The gap is one. -/
  gap : IsGap part.gap
  /-- The part stands apart. -/
  own : IsApart part.own
  /-- There is something in it. -/
  ne_nil : part.own ≠ []
  /-- It makes no slash the mark of a comment. -/
  breaks : BreaksSlash part.own

variable {part : Part}

theorem WellFormed.isApart (h : part.WellFormed) : IsApart (part.gap ++ part.own) :=
  (IsApart.gap_append h.gap h.own h.ne_nil h.breaks).1

theorem WellFormed.chunks_eq (h : part.WellFormed) :
    chunks (part.gap ++ part.own) = chunks part.gap ++ chunks part.own :=
  (IsApart.gap_append h.gap h.own h.ne_nil h.breaks).2

theorem WellFormed.withoutComments_eq (h : part.WellFormed) :
    withoutComments (part.gap ++ part.own) = part.bare.gap ++ part.bare.own := by
  rw [withoutComments, h.chunks_eq, List.flatMap_append, bare, withoutComments, withoutComments]

theorem WellFormed.commasIn_eq (h : part.WellFormed) :
    commasIn (part.gap ++ part.own) = commasIn part.own := by
  rw [commasIn, h.chunks_eq, outerCommas_append h.gap.isClosed.balanced,
    outerCommas_of_isGap h.gap, Nat.zero_add, commasIn]

end Part

section

variable {parts : List Part}

theorem partsText_cons (part : Part) (parts : List Part) :
    partsText (part :: parts) = (part.gap ++ part.own) ++ partsText parts := rfl

/-- A row of parts stands apart. -/
theorem isApart_partsText (h : ∀ part ∈ parts, part.WellFormed) : IsApart (partsText parts) := by
  induction parts with
  | nil => exact .of_isOuter fun c hc => absurd hc List.not_mem_nil
  | cons part parts ih =>
    obtain ⟨hpart, hparts⟩ := List.forall_mem_cons.1 h
    exact hpart.isApart.append (ih hparts)

/-- **The outer commas of a row are those of its parts.** -/
theorem commasIn_partsText (h : ∀ part ∈ parts, part.WellFormed) :
    commasIn (partsText parts) = (parts.map fun part => commasIn part.own).sum := by
  induction parts with
  | nil => exact commasIn_of_isOuter fun c hc => absurd hc List.not_mem_nil
  | cons part parts ih =>
    obtain ⟨hpart, hparts⟩ := List.forall_mem_cons.1 h
    have hapart := hpart.isApart
    rw [partsText_cons, commasIn, hapart.chunks_append, outerCommas_append hapart.closed.balanced,
      ← commasIn, ← commasIn, hpart.commasIn_eq, ih hparts, List.map_cons, List.sum_cons]

/-- A row without its comments is a row of parts again. -/
theorem withoutComments_partsText (h : ∀ part ∈ parts, part.WellFormed) :
    withoutComments (partsText parts) = partsText (parts.map Part.bare) := by
  induction parts with
  | nil => exact withoutComments_nil
  | cons part parts ih =>
    obtain ⟨hpart, hparts⟩ := List.forall_mem_cons.1 h
    rw [partsText_cons, hpart.isApart.withoutComments_append, hpart.withoutComments_eq, ih hparts,
      List.map_cons, partsText_cons]

end

end SchemaForge.Declaration
