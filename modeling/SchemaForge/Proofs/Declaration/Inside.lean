import SchemaForge.Proofs.Declaration.Closed
import SchemaForge.Proofs.Declaration.Order

/-!
# The inside of an object

What stands between a bracket and the one that closes it is closed, and it is cut into chunks by
itself as it was in its text.  A comma outside its brackets cuts its entries apart: the entries in
front of the comma are those of the text in front, and the entries behind it those of the text
behind.

## Main definitions

* `outerCommas` — how many commas stand outside all brackets.

## Main results

* `chunks_flatMap_text_of_append` — the first chunks of a text are the chunks of their own text.
* `exists_of_splitClosing` — the bracket that closes, and what stands in front of it.
* `length_splitCommas` — **chunks fall into one group more than there are outer commas.**
* `entries_append_comma` — **a comma cuts the entries apart.**
-/

namespace SchemaForge.Declaration

open Text

/-! ### Chunks of the first part of a text -/

section

variable {text pre : List Char} {front back : List Chunk} {c : Char} {rest : List Char}

/-- What a text starts with: a literal, a comment of one of the two kinds, or a character by
itself. -/
theorem chunk_forms (c : Char) (rest : List Char) :
    isQuote c = true ∨ (∃ line, c = '/' ∧ rest = '/' :: line) ∨
      (∃ block, c = '/' ∧ rest = '*' :: block) ∨
      (isQuote c = false ∧ (c ≠ '/' ∨ BreaksSlash rest)) := by
  by_cases hquote : isQuote c = true
  · exact .inl hquote
  rw [Bool.not_eq_true] at hquote
  by_cases hslash : c = '/'
  · cases rest with
    | nil => exact .inr (.inr (.inr ⟨hquote, .inr (by simp [BreaksSlash])⟩))
    | cons d rest =>
      by_cases hline : d = '/'
      · exact .inr (.inl ⟨rest, hslash, by rw [hline]⟩)
      by_cases hblock : d = '*'
      · exact .inr (.inr (.inl ⟨rest, hslash, by rw [hblock]⟩))
      · exact .inr (.inr (.inr ⟨hquote, .inr (breaksSlash_cons.2 ⟨hline, hblock⟩)⟩))
  · exact .inr (.inr (.inr ⟨hquote, .inl hslash⟩))

/-- A line ends in a line feed, or is the last. -/
theorem getLast?_splitLine (text : List Char) :
    (splitLine text).1.getLast? = some '\n' ∨ (splitLine text).2 = [] := by
  fun_induction splitLine text with
  | case1 => exact .inr rfl
  | case2 => exact .inl rfl
  | case3 c text _ line rest hs ih =>
    rw [hs] at ih
    dsimp only at ih ⊢
    refine ih.imp_left fun hline => ?_
    rw [List.getLast?_cons, hline]
    rfl

/-- A line is the first line of itself. -/
theorem splitLine_line (text : List Char) :
    splitLine (splitLine text).1 = ((splitLine text).1, []) := by
  fun_induction splitLine text with
  | case1 => rfl
  | case2 => rfl
  | case3 c text hne line rest hs ih =>
    rw [hs] at ih
    dsimp only at ih ⊢
    rw [splitLine, ih]
    exact hne

theorem splitBlockComment_inside {inside rest : List Char}
    (h : splitBlockComment text = some (inside, rest)) :
    splitBlockComment inside = some (inside, []) := by
  fun_induction splitBlockComment text generalizing inside with
  | case1 => cases h
  | case2 =>
    cases h
    rfl
  | case3 c text hne ih =>
    obtain ⟨i, hs, rfl⟩ := map_inside_eq_some_iff.1 h
    rw [splitBlockComment, ih hs]
    · rfl
    · rintro more rfl rfl
      rw [← splitBlockComment_append hs] at hne
      exact hne (more ++ rest) rfl rfl

/-- A chunk that goes on behind its text is the last. -/
theorem chunk_rest_of_not_isEnded (h : (chunk c rest).1.isEnded = false) :
    (chunk c rest).2 = [] := by
  unfold chunk at h ⊢
  by_cases hquote : isQuote c = true
  · rw [if_pos hquote] at h ⊢
    cases hs : splitLiteral c rest with
    | none => rfl
    | some split =>
      rw [hs] at h
      cases h
  · rw [if_neg hquote] at h ⊢
    split at h
    · next line =>
      refine (getLast?_splitLine line).resolve_left fun hline => ?_
      simp [Chunk.isEnded, hline] at h
    · next block =>
      cases hs : splitBlockComment block with
      | none => simp
      | some split => simp [hs, Chunk.isEnded] at h
    · cases h

/-- All chunks but the last end. -/
theorem areEnded_of_chunks_eq (h : chunks text = front ++ back) (hback : back ≠ []) :
    AreEnded front := by
  induction front generalizing text with
  | nil => exact fun _ hk => absurd hk List.not_mem_nil
  | cons k front ih =>
    cases text with
    | nil => simp at h
    | cons c rest =>
      rw [chunks_cons, List.cons_append] at h
      obtain ⟨rfl, hrest⟩ := List.cons.inj h
      refine List.forall_mem_cons.2 ⟨?_, ih hrest⟩
      rw [← Bool.not_eq_false]
      intro hopen
      rw [chunk_rest_of_not_isEnded hopen, chunks_nil] at hrest
      exact hback (List.append_eq_nil_iff.1 hrest.symm).2

theorem BreaksSlash.of_isPrefix (h : BreaksSlash text) (hpre : pre <+: text) :
    BreaksSlash pre := by
  cases pre with
  | nil => simp [BreaksSlash]
  | cons c pre =>
    obtain ⟨more, rfl⟩ := hpre
    exact breaksSlash_cons.2 (breaksSlash_cons.1 h)

/-- A chunk that ends is cut off alike in front of any other text; a slash by itself needs that it
is not made the mark of a comment. -/
theorem chunk_text_append (h : (chunk c rest).1.isEnded = true) {more : List Char}
    (hmore : (chunk c rest).1 = .char '/' → BreaksSlash more) :
    ∃ d own, (chunk c rest).1.text = d :: own ∧
      chunk d (own ++ more) = ((chunk c rest).1, more) := by
  rcases chunk_cases h with ⟨inside, after, hquote, hs⟩ | ⟨line, rfl, rfl, hline⟩ |
    ⟨block, inside, after, rfl, rfl, hs⟩ | ⟨hquote, hslash⟩
  · have hinside := splitLiteral_append_right (ne_backslash_of_isQuote hquote)
      (splitLiteral_inside hs) more
    rw [chunk_quote hquote hs]
    exact ⟨c, inside, rfl, chunk_quote hquote hinside⟩
  · have hinside : splitLine ((splitLine line).1 ++ more) = ((splitLine line).1, more) := by
      rw [splitLine_append_right (by rw [splitLine_line]; exact hline), splitLine_line]
      rfl
    rw [chunk_line]
    exact ⟨'/', '/' :: (splitLine line).1, rfl, by rw [List.cons_append, chunk_line, hinside]⟩
  · have hinside := splitBlockComment_append_right (splitBlockComment_inside hs) more
    rw [chunk_block hs]
    exact ⟨'/', '*' :: inside, rfl, chunk_block hinside⟩
  · rw [chunk_eq_char hquote hslash] at hmore ⊢
    refine ⟨c, [], rfl, chunk_eq_char hquote ?_⟩
    by_cases hc : c = '/'
    · exact .inr (hmore (by rw [hc]))
    · exact .inl hc

/-- **The first chunks of a text are the chunks of their own text.** -/
theorem chunks_flatMap_text_of_append (h : chunks text = front ++ back) :
    chunks (front.flatMap Chunk.text) = front := by
  by_cases hback : back = []
  · rw [hback, List.append_nil] at h
    rw [← h, chunks_flatMap_text]
  have hended := areEnded_of_chunks_eq h hback
  induction front generalizing text with
  | nil => exact chunks_nil
  | cons k front ih =>
    cases text with
    | nil => simp at h
    | cons c rest =>
      rw [chunks_cons, List.cons_append] at h
      obtain ⟨rfl, hrest⟩ := List.cons.inj h
      obtain ⟨hk, hfront⟩ := List.forall_mem_cons.1 hended
      have hpre : front.flatMap Chunk.text <+: (chunk c rest).2 := by
        rw [← chunks_flatMap_text (chunk c rest).2, hrest, List.flatMap_append]
        exact List.prefix_append ..
      -- what follows a slash by itself breaks it still
      have hslash : (chunk c rest).1 = .char '/' → BreaksSlash (front.flatMap Chunk.text) := by
        intro hchar
        rcases chunk_cases hk with ⟨inside, after, hquote, hs⟩ | ⟨line, rfl, rfl, -⟩ |
          ⟨block, inside, after, rfl, rfl, hs⟩ | ⟨hquote, hbreaks⟩
        · rw [chunk_quote hquote hs] at hchar
          cases hchar
        · rw [chunk_line] at hchar
          cases hchar
        · rw [chunk_block hs] at hchar
          cases hchar
        · rw [chunk_eq_char hquote hbreaks] at hchar hpre
          cases hchar
          exact (hbreaks.resolve_left fun hne => hne rfl).of_isPrefix hpre
      obtain ⟨d, own, htext, hchunk⟩ := chunk_text_append hk hslash
      rw [List.flatMap_cons, htext, List.cons_append, chunks_cons, hchunk, ih hrest hfront]

end

/-! ### The bracket that closes -/

section

variable {text : List Char} {cs inside behind : List Chunk} {depth : Nat}

/-- The bracket that closes stands behind chunks that close all that was open. -/
theorem exists_of_splitClosing (h : splitClosing depth cs = some (inside, behind)) :
    ∃ c, isOpening c = false ∧ isClosing c = true ∧ cs = inside ++ .char c :: behind ∧
      depthThrough depth inside = some 0 := by
  -- a chunk in front of what is found takes the depth to that of the rest
  have hcons : ∀ {k : Chunk} {cs inside : List Chunk} {depth depth' : Nat},
      k.depthBehind? depth = some depth' →
      (∃ c, isOpening c = false ∧ isClosing c = true ∧ cs = inside ++ .char c :: behind ∧
        depthThrough depth' inside = some 0) →
      ∃ c, isOpening c = false ∧ isClosing c = true ∧ k :: cs = (k :: inside) ++ .char c :: behind ∧
        depthThrough depth (k :: inside) = some 0 := by
    rintro k cs inside depth depth' hk ⟨c, hopen, hclose, rfl, hdepth⟩
    exact ⟨c, hopen, hclose, rfl, by rw [depthThrough, hk]; exact hdepth⟩
  fun_induction splitClosing depth cs generalizing inside with
  | case1 => cases h
  | case2 depth c cs hopen ih =>
    obtain ⟨i, hs, rfl⟩ := map_inside_eq_some_iff.1 h
    exact hcons (by simp [Chunk.depthBehind?, hopen]) (ih hs)
  | case3 c cs hopen hclose =>
    cases h
    exact ⟨c, by simpa using hopen, hclose, rfl, rfl⟩
  | case4 c cs hopen hclose depth ih =>
    obtain ⟨i, hs, rfl⟩ := map_inside_eq_some_iff.1 h
    exact hcons (by simp [Chunk.depthBehind?, hopen, hclose]) (ih hs)
  | case5 depth c cs hopen hclose ih =>
    obtain ⟨i, hs, rfl⟩ := map_inside_eq_some_iff.1 h
    exact hcons (by simp [Chunk.depthBehind?, hopen, hclose]) (ih hs)
  | case6 depth t cs ih =>
    obtain ⟨i, hs, rfl⟩ := map_inside_eq_some_iff.1 h
    exact hcons rfl (ih hs)
  | case7 depth t cs ih =>
    obtain ⟨i, hs, rfl⟩ := map_inside_eq_some_iff.1 h
    exact hcons rfl (ih hs)
  | case8 => cases h
  | case9 => cases h

/-- **What stands between a bracket and the one that closes it is closed**, and it is cut into
chunks by itself. -/
theorem isClosed_of_splitClosing (h : splitClosing 0 (chunks text) = some (inside, behind)) :
    IsClosed (inside.flatMap Chunk.text) ∧ chunks (inside.flatMap Chunk.text) = inside := by
  obtain ⟨c, -, -, hchunks, hdepth⟩ := exists_of_splitClosing h
  have hinside := chunks_flatMap_text_of_append hchunks
  refine ⟨⟨?_, ?_⟩, hinside⟩
  · rw [hinside]
    exact areEnded_of_chunks_eq hchunks (List.cons_ne_nil _ _)
  · rw [hinside]
    exact hdepth

end

/-! ### Commas that cut -/

section

variable {cs rest : List Chunk} {k j : Nat} {p : Position}

theorem consFirst_append (c : Chunk) {groups : List (List Chunk)} (h : groups ≠ [])
    (more : List (List Chunk)) : consFirst c (groups ++ more) = consFirst c groups ++ more := by
  obtain ⟨group, groups, rfl⟩ := List.exists_cons_of_ne_nil h
  rfl

/-- A comma outside all brackets cuts the groups apart. -/
theorem splitCommas_append_comma (h : depthThrough k cs = some 0) (rest : List Chunk) :
    splitCommas k (cs ++ .char ',' :: rest) = splitCommas k cs ++ splitCommas 0 rest := by
  induction cs generalizing k with
  | nil =>
    cases h
    rfl
  | cons c cs ih =>
    obtain ⟨j, hj, hcs⟩ := Option.bind_eq_some_iff.1 h
    have hdepth : c.depthAfter k = j := Chunk.depthAfter_of_depthBehind? hj 0
    rw [List.cons_append, splitCommas, splitCommas]
    by_cases hcomma : c = .char ',' ∧ k = 0
    · obtain ⟨rfl, rfl⟩ := hcomma
      cases hj
      rw [if_pos ⟨rfl, rfl⟩, if_pos ⟨rfl, rfl⟩, ih hcs, List.cons_append]
    · rw [if_neg hcomma, if_neg hcomma, hdepth, ih hcs,
        consFirst_append c (splitCommas_ne_nil j cs)]

theorem groupEntries_append {groups : List (List Chunk)} (h : groups ≠ []) (p : Position)
    (more : List (List Chunk)) :
    groupEntries p (groups ++ more) =
      groupEntries p groups ++ groupEntries ((p.after (groupsText groups)).next ',') more := by
  induction groups generalizing p with
  | nil => exact absurd rfl h
  | cons group groups ih =>
    rw [List.cons_append, groupEntries, groupEntries]
    cases groups with
    | nil => simp [groupEntries, groupsText]
    | cons other groups =>
      have htext : groupsText (group :: other :: groups) =
          group.flatMap Chunk.text ++ ',' :: groupsText (other :: groups) := by
        simp [groupsText, List.intercalate_cons_cons]
      rw [ih (List.cons_ne_nil _ _), htext, Position.after_append, Position.after_cons,
        List.append_assoc]

/-- **A comma outside all brackets cuts the entries apart.** -/
theorem entries_append_comma (h : depthThrough 0 cs = some 0) (p : Position)
    (rest : List Chunk) :
    entries p (cs ++ .char ',' :: rest) =
      entries p cs ++ entries ((p.after (cs.flatMap Chunk.text)).next ',') rest := by
  rw [entries, splitCommas_append_comma h, groupEntries_append (splitCommas_ne_nil 0 cs),
    groupsText_splitCommas]
  rfl

/-- How many commas stand outside all brackets, starting at a depth. -/
def outerCommas (depth : Nat) : List Chunk → Nat
  | [] => 0
  | c :: rest =>
    (if c = .char ',' ∧ depth = 0 then 1 else 0) + outerCommas (c.depthAfter depth) rest

/-- **Chunks fall into one group more than there are outer commas.** -/
theorem length_splitCommas (k : Nat) (cs : List Chunk) :
    (splitCommas k cs).length = outerCommas k cs + 1 := by
  induction cs generalizing k with
  | nil => rfl
  | cons c cs ih =>
    rw [splitCommas, outerCommas]
    by_cases hcomma : c = .char ',' ∧ k = 0
    · obtain ⟨rfl, rfl⟩ := hcomma
      have hdepth : (Chunk.char ',').depthAfter 0 = 0 := rfl
      rw [if_pos ⟨rfl, rfl⟩, if_pos ⟨rfl, rfl⟩, List.length_cons, ih, hdepth, Nat.add_comm 1]
    · obtain ⟨group, groups, hsplit⟩ :=
        List.exists_cons_of_ne_nil (splitCommas_ne_nil (c.depthAfter k) cs)
      rw [if_neg hcomma, if_neg hcomma, Nat.zero_add, ← ih, hsplit]
      rfl

theorem splitCommas_of_outerCommas_eq_zero (h : outerCommas k cs = 0) :
    splitCommas k cs = [cs] := by
  induction cs generalizing k with
  | nil => rfl
  | cons c cs ih =>
    rw [outerCommas, Nat.add_eq_zero_iff] at h
    have hcomma : ¬ (c = .char ',' ∧ k = 0) := fun hcomma => by simp [hcomma] at h
    rw [splitCommas, if_neg hcomma, ih h.2]
    rfl

/-- Outer commas of chunks in a row are counted together. -/
theorem outerCommas_append (h : depthThrough k cs = some j) (rest : List Chunk) :
    outerCommas k (cs ++ rest) = outerCommas k cs + outerCommas j rest := by
  induction cs generalizing k with
  | nil =>
    cases h
    exact (Nat.zero_add _).symm
  | cons c cs ih =>
    obtain ⟨i, hi, hcs⟩ := Option.bind_eq_some_iff.1 h
    have hdepth : c.depthAfter k = i := Chunk.depthAfter_of_depthBehind? hi 0
    rw [List.cons_append, outerCommas, outerCommas, hdepth, ih hcs, Nat.add_assoc]

end

end SchemaForge.Declaration
