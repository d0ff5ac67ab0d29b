import SchemaForge.Declaration.Entry
import SchemaForge.Proofs.Text.Search

/-!
# Closed texts

A text is closed when whatever starts in it ends in it: every literal, every comment and every
bracket.  What stands behind a closed text is cut into chunks as if the text were not there, and
neither the search for a closing bracket nor the search for commas stops inside it.

## Main definitions

* `Chunk.isEnded` — no literal and no comment goes on behind the chunk.
* `depthThrough` — how many brackets are open behind some chunks.
* `IsClosed` — a text that can stand between two brackets.
* `withoutComments` — a text as it is read inside an entry.

## Main results

* `chunks_append` — the chunks of a closed text and of what stands behind it.
* `splitClosing_append`, `splitCommas_append` — the two searches, past closed text.
* `IsClosed.withoutComments` — a closed text stays closed without its comments.
-/

namespace SchemaForge.Declaration

open Text

/-! ### Chunks that end -/

/-- No literal and no comment goes on behind the chunk: a comment to the end of its line has the
line feed. -/
def Chunk.isEnded : Chunk → Bool
  | char _ => true
  | literal _ => true
  | comment ('/' :: '/' :: line) => line.getLast? == some '\n'
  | comment _ => true
  | openLiteral _ => false
  | openComment _ => false

/-- What is split off when more stands in front of it. -/
theorem map_inside_eq_some_iff {α : Type} {found : Option (α × α)} {f : α → α}
    {inside rest : α} :
    (found.map fun (inside, rest) => (f inside, rest)) = some (inside, rest) ↔
      ∃ i, found = some (i, rest) ∧ f i = inside := by
  rw [Option.map_eq_some_iff]
  constructor
  · rintro ⟨⟨i, r⟩, hfound, heq⟩
    cases heq
    exact ⟨i, hfound, rfl⟩
  · rintro ⟨i, hfound, rfl⟩
    exact ⟨(i, rest), hfound, rfl⟩

theorem splitLiteral_append_right {q : Char} (hq : q ≠ '\\') {text inside rest : List Char}
    (h : splitLiteral q text = some (inside, rest)) (more : List Char) :
    splitLiteral q (text ++ more) = some (inside, rest ++ more) := by
  fun_induction splitLiteral q text generalizing inside with
  | case1 => cases h
  | case2 c text ih =>
    obtain ⟨i, hs, rfl⟩ := (map_inside_eq_some_iff (f := fun i => '\\' :: c :: i)).1 h
    simp [splitLiteral, ih hs]
  | case3 text =>
    cases h
    rw [List.cons_append, splitLiteral]
    · simp
    · intro d rest hd
      exact absurd hd hq
  | case4 c text hne hc ih =>
    obtain ⟨i, hs, rfl⟩ := map_inside_eq_some_iff.1 h
    rw [List.cons_append, splitLiteral, if_neg hc, ih hs]
    · rfl
    · -- a backslash at the end of the text would leave the literal open
      rintro d rest rfl happend
      cases text with
      | nil => cases hs
      | cons e text => exact hne e text rfl rfl

theorem splitBlockComment_append_right {text inside rest : List Char}
    (h : splitBlockComment text = some (inside, rest)) (more : List Char) :
    splitBlockComment (text ++ more) = some (inside, rest ++ more) := by
  fun_induction splitBlockComment text generalizing inside with
  | case1 => cases h
  | case2 =>
    cases h
    rfl
  | case3 c text hne ih =>
    obtain ⟨i, hs, rfl⟩ := map_inside_eq_some_iff.1 h
    rw [List.cons_append, splitBlockComment, ih hs]
    · rfl
    · rintro rest rfl happend
      cases text with
      | nil => cases hs
      | cons d text =>
        obtain ⟨rfl, -⟩ := List.cons.inj happend
        exact hne text rfl rfl

theorem splitLine_append_right {text : List Char}
    (h : (splitLine text).1.getLast? = some '\n') (more : List Char) :
    splitLine (text ++ more) = ((splitLine text).1, (splitLine text).2 ++ more) := by
  fun_induction splitLine text with
  | case1 => cases h
  | case2 => rfl
  | case3 c text hne line rest hs ih =>
    simp only [hs] at ih
    have hlast : line.getLast? = some '\n' := by
      cases line with
      | nil =>
        simp only [List.getLast?_singleton, Option.some.injEq] at h
        exact absurd h hne
      | cons d line => rwa [List.getLast?_cons_cons] at h
    rw [List.cons_append, splitLine, ih hlast]
    exact hne

/-- What may stand behind a slash without making it the mark of a comment. -/
def BreaksSlash (rest : List Char) : Prop :=
  ∀ d ∈ rest.head?, d ≠ '/' ∧ d ≠ '*'

theorem breaksSlash_cons {d : Char} {rest : List Char} :
    BreaksSlash (d :: rest) ↔ d ≠ '/' ∧ d ≠ '*' := by
  simp [BreaksSlash]

/-- A character by itself: no quote, and no mark of a comment. -/
theorem chunk_eq_char {c : Char} {rest : List Char} (hquote : isQuote c = false)
    (hslash : c ≠ '/' ∨ BreaksSlash rest) : chunk c rest = (.char c, rest) := by
  unfold chunk
  rw [if_neg (by simp [hquote])]
  split
  · next line => exact absurd (breaksSlash_cons.1 (hslash.resolve_left (· rfl))).1 (· rfl)
  · next inside => exact absurd (breaksSlash_cons.1 (hslash.resolve_left (· rfl))).2 (· rfl)
  · rfl

theorem chunk_quote {c : Char} {rest inside after : List Char} (hquote : isQuote c = true)
    (h : splitLiteral c rest = some (inside, after)) :
    chunk c rest = (.literal (c :: inside), after) := by
  unfold chunk
  rw [if_pos hquote, h]

theorem chunk_line (rest : List Char) :
    chunk '/' ('/' :: rest) =
      (.comment ('/' :: '/' :: (splitLine rest).1), (splitLine rest).2) := rfl

theorem chunk_block {rest inside after : List Char}
    (h : splitBlockComment rest = some (inside, after)) :
    chunk '/' ('*' :: rest) = (.comment ('/' :: '*' :: inside), after) := by
  unfold chunk
  rw [if_neg (by decide)]
  simp [h]

theorem chunk_open_quote {c : Char} {rest : List Char} (hquote : isQuote c = true)
    (h : splitLiteral c rest = none) : chunk c rest = (.openLiteral (c :: rest), []) := by
  unfold chunk
  rw [if_pos hquote, h]

theorem chunk_open_block {rest : List Char} (h : splitBlockComment rest = none) :
    chunk '/' ('*' :: rest) = (.openComment ('/' :: '*' :: rest), []) := by
  unfold chunk
  rw [if_neg (by decide)]
  simp [h]

/-- The chunks that end, and what they are cut from: a literal, a comment of one of the two kinds,
or a character. -/
theorem chunk_cases {c : Char} {rest : List Char} (h : (chunk c rest).1.isEnded = true) :
    (∃ inside after, isQuote c = true ∧ splitLiteral c rest = some (inside, after)) ∨
    (∃ line, c = '/' ∧ rest = '/' :: line ∧ (splitLine line).1.getLast? = some '\n') ∨
    (∃ block inside after, c = '/' ∧ rest = '*' :: block ∧
      splitBlockComment block = some (inside, after)) ∨
    (isQuote c = false ∧ (c ≠ '/' ∨ BreaksSlash rest)) := by
  by_cases hc : isQuote c = true
  · unfold chunk at h
    rw [if_pos hc] at h
    cases hs : splitLiteral c rest with
    | none =>
      rw [hs] at h
      cases h
    | some p => exact .inl ⟨p.1, p.2, hc, rfl⟩
  rw [Bool.not_eq_true] at hc
  by_cases hslash : c ≠ '/' ∨ BreaksSlash rest
  · exact .inr (.inr (.inr ⟨hc, hslash⟩))
  rw [not_or, Decidable.not_not] at hslash
  obtain ⟨rfl, hrest⟩ := hslash
  cases rest with
  | nil => exact absurd (by simp [BreaksSlash]) hrest
  | cons d rest =>
    rw [breaksSlash_cons, Decidable.not_and_iff_not_or_not, Decidable.not_not,
      Decidable.not_not] at hrest
    -- two slashes, or a slash and a star
    rcases hrest with rfl | rfl
    · rw [chunk_line] at h
      exact .inr (.inl ⟨rest, rfl, rfl, by simpa [Chunk.isEnded] using h⟩)
    · unfold chunk at h
      rw [if_neg (by decide)] at h
      cases hs : splitBlockComment rest with
      | none => simp [hs, Chunk.isEnded] at h
      | some p => exact .inr (.inr (.inl ⟨rest, p.1, p.2, rfl, rfl, hs⟩))

theorem ne_backslash_of_isQuote {c : Char} (h : isQuote c = true) : c ≠ '\\' := by
  rintro rfl
  cases h

/-- A chunk that ends is cut off alike whatever stands behind the text; only a slash at the end of
the text could become the mark of a comment. -/
theorem chunk_append {c : Char} {rest : List Char} (h : (chunk c rest).1.isEnded = true)
    {more : List Char} (hmore : BreaksSlash more) :
    chunk c (rest ++ more) = ((chunk c rest).1, (chunk c rest).2 ++ more) := by
  rcases chunk_cases h with ⟨inside, after, hquote, hs⟩ | ⟨line, rfl, rfl, hline⟩ |
    ⟨block, inside, after, rfl, rfl, hs⟩ | ⟨hquote, hslash⟩
  · rw [chunk_quote hquote hs,
      chunk_quote hquote (splitLiteral_append_right (ne_backslash_of_isQuote hquote) hs more)]
  · rw [chunk_line, List.cons_append, chunk_line, splitLine_append_right hline]
  · rw [chunk_block hs, List.cons_append, chunk_block (splitBlockComment_append_right hs more)]
  · have hslash' : c ≠ '/' ∨ BreaksSlash (rest ++ more) := by
      refine hslash.imp_right fun hrest => ?_
      cases rest with
      | nil => exact hmore
      | cons d rest => exact breaksSlash_cons.2 (breaksSlash_cons.1 hrest)
    rw [chunk_eq_char hquote hslash, chunk_eq_char hquote hslash']

/-- Every literal and every comment of the text ends in it. -/
def AreEnded (cs : List Chunk) : Prop :=
  ∀ chunk ∈ cs, chunk.isEnded = true

/-- **What stands behind a text without open ends is cut into chunks by itself.** -/
theorem chunks_append {text more : List Char} (h : AreEnded (chunks text))
    (hmore : BreaksSlash more) : chunks (text ++ more) = chunks text ++ chunks more := by
  fun_induction chunks text with
  | case1 => rfl
  | case2 c rest ih =>
    have hhead := chunk_append (h _ (List.mem_cons_self ..)) hmore
    rw [List.cons_append, chunks_cons, hhead, ih fun d hd => h d (List.mem_cons_of_mem _ hd)]
    rfl

/-- Characters without quotes and slashes stand by themselves. -/
def IsPlain (text : List Char) : Prop :=
  ∀ c ∈ text, isQuote c = false ∧ c ≠ '/'

theorem chunks_plain_append {text : List Char} (h : IsPlain text) (more : List Char) :
    chunks (text ++ more) = text.map .char ++ chunks more := by
  induction text with
  | nil => rfl
  | cons c text ih =>
    obtain ⟨hquote, hslash⟩ := h c (List.mem_cons_self ..)
    rw [List.cons_append, chunks_cons, chunk_eq_char hquote (.inl hslash),
      ih fun d hd => h d (List.mem_cons_of_mem _ hd)]
    rfl

/-! ### Brackets -/

/-- How many brackets are open behind a chunk that starts at a depth; none when it closes one more
than were open. -/
def Chunk.depthBehind? (depth : Nat) : Chunk → Option Nat
  | char c =>
    if isOpening c then some (depth + 1)
    else if isClosing c then
      match depth with
      | 0 => none
      | depth + 1 => some depth
    else some depth
  | _ => some depth

/-- How many brackets are open behind some chunks; none once more are closed than were open. -/
def depthThrough (depth : Nat) : List Chunk → Option Nat
  | [] => some depth
  | c :: rest => (c.depthBehind? depth).bind fun depth => depthThrough depth rest

/-- A text that can stand between two brackets: every literal and every comment ends in it, and
so does every bracket that opens in it. -/
structure IsClosed (text : List Char) : Prop where
  /-- Literals and comments end. -/
  ended : AreEnded (chunks text)
  /-- Brackets are balanced, and none closes that was not opened. -/
  balanced : depthThrough 0 (chunks text) = some 0

/-- Whether a text is closed is decided by its chunks. -/
theorem isClosed_iff {text : List Char} : IsClosed text ↔
    ((chunks text).all Chunk.isEnded && depthThrough 0 (chunks text) == some 0) = true := by
  rw [Bool.and_eq_true, List.all_eq_true, beq_iff_eq]
  exact ⟨fun h => ⟨h.ended, h.balanced⟩, fun h => ⟨h.1, h.2⟩⟩

/-- What one chunk can do to the depth: a bracket opens or closes, and all else leaves it. -/
theorem Chunk.depthBehind?_cases {c : Char} {k k' : Nat}
    (h : (Chunk.char c).depthBehind? k = some k') :
    (isOpening c = true ∧ k' = k + 1) ∨
      (isOpening c = false ∧ isClosing c = true ∧ k = k' + 1) ∨
      (isOpening c = false ∧ isClosing c = false ∧ k' = k) := by
  unfold depthBehind? at h
  dsimp only at h
  by_cases hopen : isOpening c = true
  · rw [if_pos hopen, Option.some.injEq] at h
    exact .inl ⟨hopen, h.symm⟩
  rw [if_neg hopen] at h
  rw [Bool.not_eq_true] at hopen
  by_cases hclose : isClosing c = true
  · rw [if_pos hclose] at h
    cases k with
    | zero => cases h
    | succ k =>
      cases h
      exact .inr (.inl ⟨hopen, hclose, rfl⟩)
  · rw [if_neg hclose, Option.some.injEq] at h
    exact .inr (.inr ⟨hopen, by simpa using hclose, h.symm⟩)

theorem Chunk.depthBehind?_succ {chunk : Chunk} {k k' : Nat}
    (h : chunk.depthBehind? k = some k') : chunk.depthBehind? (k + 1) = some (k' + 1) := by
  cases chunk with
  | char c =>
    rcases depthBehind?_cases h with ⟨hopen, rfl⟩ | ⟨hopen, hclose, rfl⟩ | ⟨hopen, hclose, rfl⟩
    · simp [depthBehind?, hopen]
    · simp [depthBehind?, hopen, hclose]
    · simp [depthBehind?, hopen, hclose]
  | _ =>
    cases h
    rfl

theorem depthThrough_append {cs : List Chunk} {k k' : Nat} (h : depthThrough k cs = some k')
    (rest : List Chunk) : depthThrough k (cs ++ rest) = depthThrough k' rest := by
  induction cs generalizing k with
  | nil =>
    cases h
    rfl
  | cons chunk cs ih =>
    obtain ⟨j, hj, hcs⟩ := Option.bind_eq_some_iff.1 h
    rw [List.cons_append, depthThrough, hj]
    exact ih hcs

/-- Brackets that are open around some chunks stay open. -/
theorem depthThrough_succ {cs : List Chunk} {k k' : Nat} (h : depthThrough k cs = some k') :
    depthThrough (k + 1) cs = some (k' + 1) := by
  induction cs generalizing k with
  | nil =>
    cases h
    rfl
  | cons chunk cs ih =>
    obtain ⟨j, hj, hcs⟩ := Option.bind_eq_some_iff.1 h
    rw [depthThrough, Chunk.depthBehind?_succ hj]
    exact ih hcs

theorem splitClosing_cons {chunk : Chunk} (hended : chunk.isEnded = true) {k k' : Nat}
    (h : chunk.depthBehind? k = some k') (d : Nat) (rest : List Chunk) :
    splitClosing (k + d) (chunk :: rest) =
      (splitClosing (k' + d) rest).map fun (inside, rest) => (chunk :: inside, rest) := by
  cases chunk with
  | char c =>
    rw [splitClosing.eq_def]
    rcases Chunk.depthBehind?_cases h with
      ⟨hopen, rfl⟩ | ⟨hopen, hclose, rfl⟩ | ⟨hopen, hclose, rfl⟩
    · simp [hopen, Nat.add_right_comm]
    · simp [hopen, hclose, Nat.add_right_comm]
    · simp [hopen, hclose]
  | literal t =>
    cases h
    rfl
  | comment t =>
    cases h
    rfl
  | openLiteral t => cases hended
  | openComment t => cases hended

/-- **The search for a closing bracket goes past chunks** that close no more brackets than they
open. -/
theorem splitClosing_append {cs : List Chunk} (hended : AreEnded cs) {k k' : Nat}
    (h : depthThrough k cs = some k') (d : Nat) (rest : List Chunk) :
    splitClosing (k + d) (cs ++ rest) =
      (splitClosing (k' + d) rest).map fun (inside, rest) => (cs ++ inside, rest) := by
  induction cs generalizing k with
  | nil =>
    cases h
    simp
  | cons chunk cs ih =>
    obtain ⟨j, hj, hcs⟩ := Option.bind_eq_some_iff.1 h
    rw [List.cons_append, splitClosing_cons (hended _ (List.mem_cons_self ..)) hj,
      ih (fun c hc => hended c (List.mem_cons_of_mem _ hc)) hcs, Option.map_map]
    rfl

theorem Chunk.depthAfter_of_depthBehind? {chunk : Chunk} {k k' : Nat}
    (h : chunk.depthBehind? k = some k') (d : Nat) : chunk.depthAfter (k + d) = k' + d := by
  cases chunk with
  | char c =>
    rw [depthAfter]
    rcases depthBehind?_cases h with ⟨hopen, rfl⟩ | ⟨hopen, hclose, rfl⟩ | ⟨hopen, hclose, rfl⟩
    · rw [if_pos hopen, Nat.add_right_comm]
    · rw [if_neg (by simp [hopen]), if_pos hclose]
      omega
    · rw [if_neg (by simp [hopen]), if_neg (by simp [hclose])]
  | _ =>
    cases h
    rfl

/-- **No comma inside brackets ends a group.** -/
theorem splitCommas_append {cs : List Chunk} {k k' : Nat} (h : depthThrough k cs = some k')
    (d : Nat) (rest : List Chunk) :
    splitCommas (k + (d + 1)) (cs ++ rest) =
      cs.foldr consFirst (splitCommas (k' + (d + 1)) rest) := by
  induction cs generalizing k with
  | nil =>
    cases h
    rfl
  | cons chunk cs ih =>
    obtain ⟨j, hj, hcs⟩ := Option.bind_eq_some_iff.1 h
    rw [List.cons_append, splitCommas, if_neg (by omega), Chunk.depthAfter_of_depthBehind? hj,
      ih hcs]
    rfl

/-! ### Texts without comments -/

/-- The chunk that is read in another's place inside an entry. -/
def Chunk.bare : Chunk → Chunk
  | comment _ => .char ' '
  | openComment _ => .char ' '
  | other => other

/-- A text as it is read inside an entry. -/
def withoutComments (text : List Char) : List Char :=
  (chunks text).flatMap Chunk.bareText

@[simp] theorem withoutComments_nil : withoutComments [] = [] := by
  simp [withoutComments]

theorem withoutComments_cons (c : Char) (rest : List Char) :
    withoutComments (c :: rest) =
      (chunk c rest).1.bareText ++ withoutComments (chunk c rest).2 := by
  rw [withoutComments, chunks_cons, List.flatMap_cons, withoutComments]

theorem withoutComments_plain_append {text : List Char} (h : IsPlain text) (more : List Char) :
    withoutComments (text ++ more) = text ++ withoutComments more := by
  rw [withoutComments, chunks_plain_append h, List.flatMap_append, withoutComments,
    List.flatMap_map]
  simp [Chunk.bareText, Chunk.text]

/-- The first character without comments is the first of the text, or a space. -/
theorem BreaksSlash.withoutComments {text : List Char} (hended : AreEnded (chunks text))
    (h : BreaksSlash text) : BreaksSlash (withoutComments text) := by
  cases text with
  | nil => simpa using h
  | cons c rest =>
    rw [chunks_cons] at hended
    rw [withoutComments_cons]
    rcases chunk_cases (hended _ (List.mem_cons_self ..)) with
      ⟨inside, after, hquote, hs⟩ | ⟨line, rfl, rfl, -⟩ | ⟨block, inside, after, rfl, rfl, hs⟩ |
      ⟨hquote, hslash⟩
    · rw [chunk_quote hquote hs]
      exact breaksSlash_cons.2 (breaksSlash_cons.1 h)
    · rw [chunk_line]
      exact breaksSlash_cons.2 (by decide)
    · rw [chunk_block hs]
      exact breaksSlash_cons.2 (by decide)
    · rw [chunk_eq_char hquote hslash]
      exact breaksSlash_cons.2 (breaksSlash_cons.1 h)

theorem splitLiteral_inside {q : Char} {text inside rest : List Char}
    (h : splitLiteral q text = some (inside, rest)) :
    splitLiteral q inside = some (inside, []) := by
  fun_induction splitLiteral q text generalizing inside with
  | case1 => cases h
  | case2 c text ih =>
    obtain ⟨i, hs, rfl⟩ := (map_inside_eq_some_iff (f := fun i => '\\' :: c :: i)).1 h
    simp [splitLiteral, ih hs]
  | case3 text =>
    cases h
    simp [splitLiteral]
  | case4 c text hne hc ih =>
    obtain ⟨i, hs, rfl⟩ := map_inside_eq_some_iff.1 h
    rw [splitLiteral, if_neg hc, ih hs]
    · rfl
    · rintro d more rfl rfl
      rw [← splitLiteral_append hs] at hne
      exact hne d (more ++ rest) rfl rfl

/-- **Without its comments, a text has the same chunks**, and spaces where the comments stood. -/
theorem chunks_withoutComments {text : List Char} (h : AreEnded (chunks text)) :
    chunks (withoutComments text) = (chunks text).map Chunk.bare := by
  fun_induction chunks text with
  | case1 => simp
  | case2 c rest ih =>
    have hrest : AreEnded (chunks (chunk c rest).2) :=
      fun d hd => h d (List.mem_cons_of_mem _ hd)
    rw [withoutComments_cons, List.map_cons, ← ih hrest]
    have hspace : ∀ after, chunks (' ' :: withoutComments after) =
        .char ' ' :: chunks (withoutComments after) := by
      intro after
      rw [chunks_cons, chunk_eq_char (by decide) (.inl (by decide))]
    rcases chunk_cases (h _ (List.mem_cons_self ..)) with
      ⟨inside, after, hquote, hs⟩ | ⟨line, rfl, rfl, -⟩ | ⟨block, inside, after, rfl, rfl, hs⟩ |
      ⟨hquote, hslash⟩
    · -- the literal ends where it ended, now in front of what is left behind it
      have hinside := splitLiteral_append_right (ne_backslash_of_isQuote hquote)
        (splitLiteral_inside hs) (withoutComments after)
      rw [chunk_quote hquote hs, Chunk.bareText, Chunk.text, List.cons_append, chunks_cons,
        chunk_quote hquote hinside]
      rfl
      all_goals simp
    · rw [chunk_line]
      exact hspace _
    · rw [chunk_block hs]
      exact hspace _
    · rw [chunk_eq_char hquote hslash] at hrest ⊢
      have hslash' : c ≠ '/' ∨ BreaksSlash (withoutComments rest) :=
        hslash.imp_right fun hbreaks => hbreaks.withoutComments hrest
      show chunks (c :: withoutComments rest) = _
      rw [chunks_cons, chunk_eq_char hquote hslash']
      rfl

theorem AreEnded.map_bare {cs : List Chunk} (h : AreEnded cs) : AreEnded (cs.map Chunk.bare) := by
  intro chunk hchunk
  obtain ⟨d, hd, rfl⟩ := List.mem_map.1 hchunk
  have hended := h d hd
  cases d <;> first | exact hended | rfl

theorem depthThrough_map_bare (k : Nat) (cs : List Chunk) :
    depthThrough k (cs.map Chunk.bare) = depthThrough k cs := by
  induction cs generalizing k with
  | nil => rfl
  | cons chunk cs ih =>
    -- a space is no bracket, and neither is a comment
    have hstep : chunk.bare.depthBehind? k = chunk.depthBehind? k := by
      cases chunk <;> rfl
    rw [List.map_cons, depthThrough, depthThrough, hstep]
    simp only [ih]

/-- **A closed text stays closed without its comments.** -/
theorem IsClosed.withoutComments {text : List Char} (h : IsClosed text) :
    IsClosed (withoutComments text) where
  ended := by
    rw [chunks_withoutComments h.ended]
    exact h.ended.map_bare
  balanced := by
    rw [chunks_withoutComments h.ended, depthThrough_map_bare]
    exact h.balanced

/-- Comments taken out bring no part together that has no space. -/
theorem isInfix_of_isInfix_withoutComments {part text : List Char} (hspace : ' ' ∉ part)
    (h : part <:+: withoutComments text) : part <:+: text := by
  have hall : ∀ (cs : List Chunk) (front : List Char),
      part <:+: front ++ cs.flatMap Chunk.bareText → part <:+: front ++ cs.flatMap Chunk.text := by
    intro cs
    induction cs with
    | nil => exact fun _ h => h
    | cons chunk cs ih =>
      intro front h
      rw [List.flatMap_cons] at h ⊢
      -- what is read as it stands joins the front; a space cuts the part off from it
      have hkeep : ∀ t, part <:+: front ++ (t ++ cs.flatMap Chunk.bareText) →
          part <:+: front ++ (t ++ cs.flatMap Chunk.text) := by
        intro t h
        rw [← List.append_assoc] at h ⊢
        exact ih (front ++ t) h
      have hcut : ∀ t, part <:+: front ++ ' ' :: cs.flatMap Chunk.bareText →
          part <:+: front ++ (t ++ cs.flatMap Chunk.text) := by
        intro t h
        rcases isInfix_append_cons hspace h with h | h
        · exact h.trans (List.prefix_append ..).isInfix
        · refine (ih [] h).trans ?_
          rw [← List.append_assoc]
          exact (List.suffix_append ..).isInfix
      cases chunk with
      | comment t => exact hcut t h
      | openComment t => exact hcut t h
      | _ => exact hkeep _ h
  have htext := hall (chunks text) [] h
  rwa [List.nil_append, chunks_flatMap_text] at htext

end SchemaForge.Declaration
