import SchemaForge.Proofs.Declaration.Respaced

/-!
# Columns and runs of blanks

How long a run of blanks is, and which blanks stand in it, says nothing about a column.  The fixed
parts of an entry are read as they were, a literal ends where it ended, and a bracket closes where
it closed.  Only the comment to the end of a line asks which blank a line feed is; so what stands
behind the head of a column is to have no comments.

## Main definitions

* `hasComment` — whether a text has a chunk that is a comment.
* `HeadClear` — an entry without a comment behind its head.
* `behindClosing?` — what follows the bracket that closes.

## Main results

* `chunk_squeeze` — a chunk that is no comment.
* `behindClosing?_squeeze` — the search for the bracket that closes.
* `columnOf?_squeeze` — **an entry spells the column that its normal form spells.**
-/

namespace SchemaForge.Declaration

open Text

/-! ### Literals and comments -/

/-- The chunk is a comment. -/
def Chunk.isComment : Chunk → Bool
  | comment _ => true
  | openComment _ => true
  | _ => false

/-- A comment stands in the text. -/
def hasComment (text : List Char) : Bool :=
  (chunks text).any Chunk.isComment

/-- The chunk without the text of its literal or comment. -/
def Chunk.shape : Chunk → Chunk
  | char c => .char c
  | literal _ => .literal []
  | comment _ => .comment []
  | openLiteral _ => .openLiteral []
  | openComment _ => .openComment []

theorem hasComment_cons (c : Char) (rest : List Char) :
    hasComment (c :: rest) = ((chunk c rest).1.isComment || hasComment (chunk c rest).2) := by
  rw [hasComment, chunks_cons, List.any_cons, hasComment]

section

variable {c q : Char} {rest text : List Char}

theorem splitLiteral_quote (hq : q ≠ '\\') (rest : List Char) :
    splitLiteral q (q :: rest) = some ([q], rest) := by
  rw [splitLiteral, if_pos rfl]
  exact fun _ _ h => absurd h hq

/-- A character that neither closes nor escapes is one of the literal. -/
theorem splitLiteral_cons (hc : c ≠ q) (hescape : c ≠ '\\') (rest : List Char) :
    splitLiteral q (c :: rest) =
      (splitLiteral q rest).map fun split => (c :: split.1, split.2) := by
  rw [splitLiteral, if_neg hc]
  exact fun _ _ h => absurd h hescape

theorem map_snd_splitLiteral_cons (hc : c ≠ q) (hescape : c ≠ '\\') (rest : List Char) :
    (splitLiteral q (c :: rest)).map Prod.snd = (splitLiteral q rest).map Prod.snd := by
  rw [splitLiteral_cons hc hescape, Option.map_map]
  rfl

theorem map_snd_splitLiteral_escape (c : Char) (rest : List Char) :
    (splitLiteral q ('\\' :: c :: rest)).map Prod.snd = (splitLiteral q rest).map Prod.snd := by
  rw [splitLiteral, Option.map_map]
  rfl

/-- **A literal ends where it ended**, whatever the length of the runs of blanks in it. -/
theorem splitLiteral_squeeze (hq : isQuote q = true) (text : List Char) :
    (splitLiteral q (squeeze text)).map Prod.snd =
      (splitLiteral q text).map fun split => squeeze split.2 := by
  -- blanks are passed over, one of them or many
  have hblank : ∀ c, isBlank c = true → ∀ rest,
      (splitLiteral q (c :: rest)).map Prod.snd = (splitLiteral q rest).map Prod.snd := by
    intro c hc rest
    have hquote : c ≠ q := by
      rintro rfl
      exact absurd (isBlank_eq_false_of_isQuote hq) (by simp [hc])
    have hescape : c ≠ '\\' := by
      rintro rfl
      exact absurd hc (by decide)
    exact map_snd_splitLiteral_cons hquote hescape rest
  fun_induction splitLiteral q text with
  | case1 => rfl
  | case2 c rest ih =>
    rw [squeeze_cons_of_not_isBlank (by decide), Option.map_map]
    refine Eq.trans ?_ ih
    cases hc : isBlank c with
    | false => rw [squeeze_cons_of_not_isBlank hc, map_snd_splitLiteral_escape]
    | true =>
      rcases squeeze_cons_cases hc rest with ⟨behind, hbehind, heq⟩ | heq
      · rw [heq, hbehind, map_snd_splitLiteral_escape, hblank ' ' isBlank_space]
      · rw [heq, map_snd_splitLiteral_escape]
  | case3 rest =>
    rw [squeeze_cons_of_not_isBlank (isBlank_eq_false_of_isQuote hq),
      splitLiteral_quote (ne_backslash_of_isQuote hq)]
    rfl
  | case4 c rest hne hc ih =>
    rw [Option.map_map]
    refine Eq.trans ?_ ih
    cases hblank' : isBlank c with
    | true =>
      exact apply_squeeze_cons (f := fun text => (splitLiteral q text).map Prod.snd) hblank hblank'
        rest
    | false =>
      rw [squeeze_cons_of_not_isBlank hblank']
      by_cases hescape : c = '\\'
      · -- a backslash that escapes nothing is the last character
        cases rest with
        | nil =>
          subst hescape
          simp [splitLiteral, squeeze, hc]
        | cons d rest => exact absurd rfl (hne d rest hescape)
      · exact map_snd_splitLiteral_cons hc hescape _

/-- A blank is a chunk by itself. -/
theorem chunk_of_isBlank (h : isBlank c = true) (rest : List Char) :
    chunk c rest = (.char c, rest) := by
  have hquote : isQuote c = false := by
    cases hquote : isQuote c with
    | false => rfl
    | true => exact absurd (isBlank_eq_false_of_isQuote hquote) (by simp [h])
  have hslash : c ≠ '/' := by
    rintro rfl
    exact absurd h (by decide)
  exact chunk_eq_char hquote (.inl hslash)

/-- A comment starts with a slash, and a slash or a star. -/
theorem exists_mark_of_isComment (h : (chunk c rest).1.isComment = true) :
    c = '/' ∧ ∃ line, rest = '/' :: line ∨ rest = '*' :: line := by
  unfold chunk at h
  split at h
  · split at h <;> cases h
  · split at h
    · exact ⟨rfl, _, .inl rfl⟩
    · exact ⟨rfl, _, .inr rfl⟩
    · cases h

theorem isComment_chunk (line : List Char) :
    (chunk '/' ('/' :: line)).1.isComment = true ∧
      (chunk '/' ('*' :: line)).1.isComment = true := by
  refine ⟨rfl, ?_⟩
  cases hblock : splitBlockComment line with
  | some split => rw [chunk_block hblock, Chunk.isComment]
  | none => rw [chunk_open_block hblock, Chunk.isComment]

/-- A comment is a comment still. -/
theorem isComment_chunk_squeeze (h : (chunk c rest).1.isComment = true) :
    (chunk c (squeeze rest)).1.isComment = true := by
  obtain ⟨rfl, line, rfl | rfl⟩ := exists_mark_of_isComment h
  · rw [squeeze_cons_of_not_isBlank (by decide)]
    exact (isComment_chunk _).1
  · rw [squeeze_cons_of_not_isBlank (by decide)]
    exact (isComment_chunk _).2

/-- The chunks that are no comments: a literal that ends or goes on, or a character. -/
theorem chunk_cases_of_not_isComment (h : (chunk c rest).1.isComment = false) :
    (isQuote c = true ∧ splitLiteral c rest = none ∧
      chunk c rest = (.openLiteral (c :: rest), [])) ∨
    (∃ inside after, isQuote c = true ∧ splitLiteral c rest = some (inside, after) ∧
      chunk c rest = (.literal (c :: inside), after)) ∨
    (isQuote c = false ∧ (c ≠ '/' ∨ BreaksSlash rest) ∧ chunk c rest = (.char c, rest)) := by
  cases hquote : isQuote c with
  | true =>
    cases hrest : splitLiteral c rest with
    | none => exact .inl ⟨rfl, rfl, chunk_open_quote hquote hrest⟩
    | some split => exact .inr (.inl ⟨_, _, rfl, rfl, chunk_quote hquote hrest⟩)
  | false =>
    refine .inr (.inr ?_)
    by_cases hslash : c ≠ '/' ∨ BreaksSlash rest
    · exact ⟨rfl, hslash, chunk_eq_char hquote hslash⟩
    · -- a slash, and behind it what makes it the mark of a comment
      rw [not_or, Decidable.not_not, BreaksSlash] at hslash
      obtain ⟨rfl, hrest⟩ := hslash
      cases rest with
      | nil => exact absurd (by simp) hrest
      | cons d rest =>
        simp only [List.head?_cons, Option.mem_def, Option.some.injEq, forall_eq', not_and_or,
          not_not] at hrest
        rcases hrest with rfl | rfl
        · rw [(isComment_chunk rest).1] at h
          cases h
        · rw [(isComment_chunk rest).2] at h
          cases h

/-- **A chunk that is no comment ends where it ended.** -/
theorem chunk_squeeze (h : (chunk c rest).1.isComment = false) :
    (chunk c (squeeze rest)).1.shape = (chunk c rest).1.shape ∧
      (chunk c (squeeze rest)).2 = squeeze (chunk c rest).2 := by
  rcases chunk_cases_of_not_isComment h with
    ⟨hquote, hsplit, hchunk⟩ | ⟨inside, after, hquote, hsplit, hchunk⟩ | ⟨hquote, hslash, hchunk⟩
  · have hsqueezed := splitLiteral_squeeze hquote rest
    rw [hsplit, Option.map_none, Option.map_eq_none_iff] at hsqueezed
    rw [hchunk]
    simp [chunk, hquote, hsqueezed, Chunk.shape]
  · have hsqueezed := splitLiteral_squeeze hquote rest
    rw [hsplit, Option.map_some, Option.map_eq_some_iff] at hsqueezed
    obtain ⟨⟨inside', after'⟩, hsqueezed, hafter⟩ := hsqueezed
    rw [hchunk, chunk_quote hquote hsqueezed]
    exact ⟨rfl, hafter⟩
  · rw [hchunk, chunk_eq_char hquote (hslash.imp_right (·.respaced respacing_squeeze))]
    exact ⟨rfl, rfl⟩

theorem Chunk.isComment_shape (k : Chunk) : k.shape.isComment = k.isComment := by
  cases k <;> rfl

theorem hasComment_cons_of_isBlank (c : Char) (h : isBlank c = true) (rest : List Char) :
    hasComment (c :: rest) = hasComment rest := by
  rw [hasComment_cons, chunk_of_isBlank h]
  rfl

/-- **Whether a text has comments does not depend on its runs of blanks.** -/
theorem hasComment_squeeze (text : List Char) : hasComment (squeeze text) = hasComment text := by
  fun_induction chunks text with
  | case1 => rfl
  | case2 c rest ih =>
    cases hc : isBlank c with
    | true =>
      rw [chunk_of_isBlank hc] at ih
      rw [apply_squeeze_cons hasComment_cons_of_isBlank hc, ih, hasComment_cons_of_isBlank c hc]
    | false =>
      rw [squeeze_cons_of_not_isBlank hc, hasComment_cons, hasComment_cons]
      cases hcomment : (chunk c rest).1.isComment with
      | true => rw [isComment_chunk_squeeze hcomment, Bool.true_or, Bool.true_or]
      | false =>
        obtain ⟨hshape, hrest⟩ := chunk_squeeze hcomment
        rw [hrest, ih, ← Chunk.isComment_shape, hshape, Chunk.isComment_shape, hcomment]

/-! ### The bracket that closes -/

/-- What follows the bracket that closes the one in front of a text. -/
def behindClosing? (depth : Nat) (text : List Char) : Option (List Char) :=
  (splitClosing depth (chunks text)).map fun split => split.2.flatMap Chunk.text

/-- The search for a closing bracket at a chunk in front of `after`: it ends there, or goes on
with `further` at some depth. -/
def Chunk.searchAt (depth : Nat) (further : Nat → Option (List Char)) (after : List Char) :
    Chunk → Option (List Char)
  | char c =>
    if isOpening c then further (depth + 1)
    else if isClosing c then
      match depth with
      | 0 => some after
      | depth + 1 => further depth
    else further depth
  | literal _ => further depth
  | comment _ => further depth
  | openLiteral _ => none
  | openComment _ => none

theorem Chunk.searchAt_shape (k : Chunk) (depth : Nat) (further : Nat → Option (List Char))
    (after : List Char) :
    k.shape.searchAt depth further after = k.searchAt depth further after := by
  cases k <;> rfl

theorem Chunk.map_searchAt (k : Chunk) (depth : Nat) (further : Nat → Option (List Char))
    (after : List Char) (f : List Char → List Char) :
    (k.searchAt depth further after).map f =
      k.searchAt depth (fun depth => (further depth).map f) (f after) := by
  cases k with
  | char c =>
    simp only [searchAt]
    split
    · rfl
    · split
      · cases depth <;> rfl
      · rfl
  | _ => rfl

theorem behindClosing?_cons (depth : Nat) (c : Char) (rest : List Char) :
    behindClosing? depth (c :: rest) =
      (chunk c rest).1.searchAt depth (fun depth => behindClosing? depth (chunk c rest).2)
        (chunk c rest).2 := by
  rw [behindClosing?, chunks_cons]
  cases (chunk c rest).1 with
  | char c =>
    rw [splitClosing.eq_def, Chunk.searchAt.eq_def]
    dsimp only
    split
    · rw [Option.map_map]
      rfl
    · split
      · cases depth with
        | zero => rw [Option.map_some, chunks_flatMap_text]
        | succ depth =>
          rw [Option.map_map]
          rfl
      · rw [Option.map_map]
        rfl
  | literal t =>
    rw [splitClosing, Option.map_map]
    rfl
  | comment t =>
    rw [splitClosing, Option.map_map]
    rfl
  | openLiteral t => rfl
  | openComment t => rfl

theorem behindClosing?_cons_of_isBlank (depth : Nat) (c : Char) (h : isBlank c = true)
    (rest : List Char) : behindClosing? depth (c :: rest) = behindClosing? depth rest := by
  have hbracket : isOpening c = false ∧ isClosing c = false := by
    constructor
    · cases hopen : isOpening c with
      | false => rfl
      | true =>
        simp only [isOpening, Bool.or_eq_true, beq_iff_eq] at hopen
        rcases hopen with (rfl | rfl) | rfl <;> cases h
    · cases hclose : isClosing c with
      | false => rfl
      | true =>
        simp only [isClosing, Bool.or_eq_true, beq_iff_eq] at hclose
        rcases hclose with (rfl | rfl) | rfl <;> cases h
  rw [behindClosing?_cons, chunk_of_isBlank h, Chunk.searchAt.eq_def]
  dsimp only
  rw [hbracket.1, hbracket.2]
  rfl

/-- **A bracket closes where it closed**, whatever the length of the runs of blanks. -/
theorem behindClosing?_squeeze (h : hasComment text = false) (depth : Nat) :
    behindClosing? depth (squeeze text) = (behindClosing? depth text).map squeeze := by
  fun_induction chunks text generalizing depth with
  | case1 => simp [behindClosing?, splitClosing]
  | case2 c rest ih =>
    rw [hasComment_cons, Bool.or_eq_false_iff] at h
    have ih := ih h.2
    cases hc : isBlank c with
    | true =>
      rw [chunk_of_isBlank hc] at ih
      rw [apply_squeeze_cons (behindClosing?_cons_of_isBlank depth) hc, ih,
        behindClosing?_cons_of_isBlank depth c hc]
    | false =>
      obtain ⟨hshape, hrest⟩ := chunk_squeeze h.1
      rw [squeeze_cons_of_not_isBlank hc, behindClosing?_cons, behindClosing?_cons,
        Chunk.map_searchAt, ← Chunk.searchAt_shape, hshape, Chunk.searchAt_shape, hrest]
      simp only [ih]

/-! ### Columns -/

/-- No comment stands behind the head of an entry. -/
def HeadClear (entry : List Char) : Prop :=
  ∀ head ∈ columnHead? entry, hasComment head.rest = false

instance (entry : List Char) : Decidable (HeadClear entry) :=
  inferInstanceAs (Decidable (∀ head ∈ columnHead? entry, hasComment head.rest = false))

theorem headClear_squeeze {entry : List Char} : HeadClear (squeeze entry) ↔ HeadClear entry := by
  simp [HeadClear, columnHead?_respaced respacing_squeeze, hasComment_squeeze]

theorem columnOf?_eq (param entry : List Char) :
    columnOf? param entry = (columnHead? entry).bind fun head =>
      if head.param = param then
        (behindClosing? 0 head.rest).map (columnWith head.name head.builder)
      else none := by
  rw [columnOf?]
  cases columnHead? entry with
  | none => rfl
  | some head =>
    by_cases hparam : head.param = param
    · simp only [Option.bind_eq_bind, Option.bind_some, guard, if_pos hparam]
      rw [behindClosing?, Option.map_map]
      cases splitClosing 0 (chunks head.rest) <;> rfl
    · simp only [Option.bind_eq_bind, Option.bind_some, guard, if_neg hparam]
      rfl

/-- **An entry spells the column that its normal form spells.** -/
theorem columnOf?_squeeze {entry : List Char} (h : HeadClear entry) (param : List Char) :
    columnOf? param (squeeze entry) = columnOf? param entry := by
  rw [columnOf?_eq, columnOf?_eq, columnHead?_respaced respacing_squeeze]
  cases hhead : columnHead? entry with
  | none => rfl
  | some head =>
    have hclear := h head hhead
    simp only [Option.map_some, Option.bind_some, behindClosing?_squeeze hclear, Option.map_map,
      Function.comp_def, columnWith_respaced respacing_squeeze]

end

end SchemaForge.Declaration
