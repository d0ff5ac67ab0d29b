import SchemaForge.Proofs.Declaration.Part
import SchemaForge.Proofs.Declaration.Scanner
import SchemaForge.Proofs.Declaration.TwoPass

/-!
# The entries of a closed object

A closed object is cut at its outer commas into groups that are closed themselves.  Comments read
as spaces and blanks trimmed leave a group closed; so every entry is closed, and has no comments.
In such a text every bracket outside literals that opens is closed.

## Main definitions

* `IsGroup` — chunks that are balanced and have no comma outside their brackets.
* `IsBare` — a closed text without comments.

## Main results

* `isGroup_of_mem_splitCommas` — the groups of balanced chunks.
* `map_text_entries` — **the entries are what two passes make of the text.**
* `isBare_of_mem_entries` — **every entry is closed.**
* `exists_findClosing_of_isBare` — **every bracket outside the literals of an entry is closed.**
-/

namespace SchemaForge.Declaration

open Text

/-! ### Rows of chunks in a text -/

section

variable {text : List Char} {front back group : List Chunk} {k : Nat}

/-- The last chunks of a text are the chunks of their own text. -/
theorem chunks_flatMap_text_of_append_left (h : chunks text = front ++ back) :
    chunks (back.flatMap Chunk.text) = back := by
  induction front generalizing text with
  | nil => rw [← List.nil_append back, ← h, chunks_flatMap_text]
  | cons k front ih =>
    cases text with
    | nil => simp at h
    | cons c rest =>
      rw [chunks_cons, List.cons_append] at h
      exact ih (List.cons.inj h).2

/-- Chunks in a row are the chunks of their own text. -/
theorem chunks_flatMap_text_of_isInfix (h : group <:+: chunks text) :
    chunks (group.flatMap Chunk.text) = group := by
  obtain ⟨front, back, hchunks⟩ := h
  have hfront := chunks_flatMap_text_of_append hchunks.symm
  exact chunks_flatMap_text_of_append_left hfront

/-- Depths are counted through chunks in a row. -/
theorem depthThrough_append_eq (k : Nat) (front back : List Chunk) :
    depthThrough k (front ++ back) =
      (depthThrough k front).bind fun depth => depthThrough depth back := by
  induction front generalizing k with
  | nil => rfl
  | cons c front ih =>
    rw [List.cons_append, depthThrough, depthThrough, Option.bind_assoc]
    simp only [ih]

end

/-! ### Groups -/

/-- Chunks that close all that is open in front of them and in them, with no comma outside their
brackets. -/
structure IsGroup (depth : Nat) (cs : List Chunk) : Prop where
  /-- Brackets are balanced. -/
  balanced : depthThrough depth cs = some 0
  /-- No comma is outside them. -/
  comma : outerCommas depth cs = 0

section

variable {cs group : List Chunk} {k : Nat}

/-- The first group of balanced chunks closes what is open; the others stand by themselves. -/
theorem exists_splitCommas_eq_cons (h : depthThrough k cs = some 0) :
    ∃ first groups, splitCommas k cs = first :: groups ∧ first <+: cs ∧ IsGroup k first ∧
      ∀ group ∈ groups, group <:+: cs ∧ IsGroup 0 group := by
  induction cs generalizing k with
  | nil => exact ⟨[], [], rfl, List.nil_prefix, ⟨h, rfl⟩, by simp⟩
  | cons c cs ih =>
    obtain ⟨j, hj, hcs⟩ := Option.bind_eq_some_iff.1 h
    have hafter := Chunk.depthAfter_of_depthBehind? hj 0
    rw [Nat.add_zero, Nat.add_zero] at hafter
    obtain ⟨first, groups, hsplit, hpre, hfirst, hgroups⟩ := ih hcs
    have hothers : ∀ group ∈ groups, group <:+: c :: cs ∧ IsGroup 0 group := fun group hgroup =>
      ⟨(hgroups group hgroup).1.trans (List.suffix_cons c cs).isInfix, (hgroups group hgroup).2⟩
    rw [splitCommas]
    by_cases hcomma : c = .char ',' ∧ k = 0
    · obtain ⟨rfl, rfl⟩ := hcomma
      cases hj
      rw [if_pos ⟨rfl, rfl⟩, hsplit]
      refine ⟨[], first :: groups, rfl, List.nil_prefix, ⟨rfl, rfl⟩, ?_⟩
      refine List.forall_mem_cons.2 ⟨⟨?_, hfirst⟩, hothers⟩
      exact hpre.isInfix.trans (List.suffix_cons _ cs).isInfix
    · rw [if_neg hcomma, hafter, hsplit]
      refine ⟨c :: first, groups, rfl, List.cons_prefix_cons.2 ⟨rfl, hpre⟩, ⟨?_, ?_⟩, hothers⟩
      · rw [depthThrough, hj]
        exact hfirst.balanced
      · rw [outerCommas, if_neg hcomma, hafter, Nat.zero_add]
        exact hfirst.comma

/-- **The groups of balanced chunks are balanced**, and stand in them. -/
theorem isGroup_of_mem_splitCommas (h : depthThrough 0 cs = some 0)
    (hgroup : group ∈ splitCommas 0 cs) : group <:+: cs ∧ IsGroup 0 group := by
  obtain ⟨first, groups, hsplit, hpre, hfirst, hgroups⟩ := exists_splitCommas_eq_cons h
  rw [hsplit] at hgroup
  rcases List.mem_cons.1 hgroup with rfl | hgroup
  · exact ⟨hpre.isInfix, hfirst⟩
  · exact hgroups group hgroup

/-- A filler in front of a group is read as a blank: it is no comma, which would end the group. -/
theorem IsGroup.of_isFiller {c : Chunk} (h : IsGroup 0 (c :: group)) (hc : c.isFiller = true) :
    (∀ d ∈ c.bareText, isBlank d = true) ∧ IsGroup 0 group := by
  have hstep : c.depthBehind? 0 = some 0 ∧ c.depthAfter 0 = 0 := by
    cases c with
    | char d =>
      simp only [Chunk.isFiller, isAsciiBlank, Bool.or_eq_true, beq_iff_eq] at hc
      rcases hc with ((((rfl | rfl) | rfl) | rfl) | rfl) | rfl <;> exact ⟨rfl, rfl⟩
    | _ => exact ⟨rfl, rfl⟩
  have hcomma := h.comma
  have hbalanced := h.balanced
  rw [outerCommas, hstep.2, Nat.add_eq_zero_iff] at hcomma
  rw [depthThrough, hstep.1] at hbalanced
  refine ⟨?_, hbalanced, hcomma.2⟩
  cases c with
  | char d =>
    have hne : d ≠ ',' := by
      rintro rfl
      cases hcomma.1
    simp only [Chunk.isFiller, isAsciiBlank, Bool.or_eq_true, beq_iff_eq, hne, or_false] at hc
    rw [Chunk.bareText, Chunk.text, List.forall_mem_singleton]
    · rcases hc with (((rfl | rfl) | rfl) | rfl) | rfl <;> decide
    all_goals simp
  | comment t => simp [Chunk.bareText]; decide
  | openComment t => simp [Chunk.bareText]; decide
  | literal t => cases hc
  | openLiteral t => cases hc

/-- A group of fillers is no entry. -/
theorem trim_eq_nil_of_isFiller (h : IsGroup 0 group) (hfiller : ∀ c ∈ group, c.isFiller = true) :
    trim (group.flatMap Chunk.bareText) = [] := by
  have hblank : ∀ d ∈ group.flatMap Chunk.bareText, isBlank d = true := by
    induction group with
    | nil => simp
    | cons c group ih =>
      obtain ⟨hc, hfillers⟩ := List.forall_mem_cons.1 hfiller
      obtain ⟨hown, hgroup⟩ := h.of_isFiller hc
      rw [List.flatMap_cons]
      exact List.forall_mem_append.2 ⟨hown, ih hgroup hfillers⟩
  rw [trim, trimStart, List.dropWhile_eq_nil_iff.2 hblank, trimEnd_nil]

/-- The entry of a group is its text, if there is any. -/
theorem map_text_entryAt (h : IsGroup 0 group) (p : Position) :
    (entryAt p group).toList.map Entry.text =
      [trim (group.flatMap Chunk.bareText)].filter (· ≠ []) := by
  rw [entryAt]
  cases htext : trim (group.flatMap Chunk.bareText) with
  | nil => rfl
  | cons c text =>
    have hink : ∃ k ∈ group, k.isFiller = false := by
      by_contra hnone
      have hfiller : ∀ k ∈ group, k.isFiller = true := fun k hk => by
        by_contra hk'
        exact hnone ⟨k, hk, by simpa using hk'⟩
      rw [trim_eq_nil_of_isFiller h hfiller] at htext
      cases htext
    obtain ⟨place, hplace⟩ := exists_firstPosition?_eq_some hink p
    rw [hplace]
    rfl

theorem map_text_groupEntries_eq {groups : List (List Chunk)}
    (h : ∀ group ∈ groups, IsGroup 0 group) (p : Position) :
    (groupEntries p groups).map Entry.text =
      (groups.map fun group => trim (group.flatMap Chunk.bareText)).filter (· ≠ []) := by
  induction groups generalizing p with
  | nil => rfl
  | cons group groups ih =>
    obtain ⟨hgroup, hgroups⟩ := List.forall_mem_cons.1 h
    rw [groupEntries, List.map_append, map_text_entryAt hgroup, ih hgroups, List.map_cons,
      ← List.filter_append, List.singleton_append]

/-- The groups of chunks that are read in the place of others. -/
theorem splitCommas_map_bare (k : Nat) (cs : List Chunk) :
    splitCommas k (cs.map Chunk.bare) = (splitCommas k cs).map (·.map Chunk.bare) := by
  induction cs generalizing k with
  | nil => rfl
  | cons c cs ih =>
    have hafter : c.bare.depthAfter k = c.depthAfter k := by
      cases c <;> rfl
    have hcomma : c.bare = .char ',' ↔ c = .char ',' := by
      cases c <;> simp [Chunk.bare]
    rw [List.map_cons, splitCommas, splitCommas, hafter, ih, ih]
    by_cases h : c = .char ',' ∧ k = 0
    · rw [if_pos h, if_pos (by rwa [hcomma]), List.map_cons, List.map_nil]
    · obtain ⟨group, groups, hsplit⟩ :=
        List.exists_cons_of_ne_nil (splitCommas_ne_nil (c.depthAfter k) cs)
      rw [if_neg h, if_neg (by rwa [hcomma]), hsplit]
      rfl

end

/-! ### Closed texts without comments -/

/-- A closed text without comments. -/
structure IsBare (text : List Char) : Prop where
  /-- It is closed. -/
  isClosed : IsClosed text
  /-- It has no comments. -/
  comment : ∀ k ∈ chunks text, k.isComment = false

section

variable {text front back rest inside after : List Char} {c b q : Char} {group : List Chunk}

/-- A closed text has no comments when they are read as spaces. -/
theorem isBare_withoutComments (h : IsClosed text) : IsBare (withoutComments text) where
  isClosed := h.withoutComments
  comment := by
    rw [chunks_withoutComments h.ended]
    intro k hk
    obtain ⟨c, -, rfl⟩ := List.mem_map.1 hk
    cases c <;> rfl

/-- A blank in front can be left out. -/
theorem IsBare.of_cons (h : IsBare (c :: rest)) (hc : isBlank c = true) : IsBare rest := by
  have houter := isOuter_of_isBlank hc
  have hchunks := chunks_cons_of_isOuter houter rest
  have hended := h.isClosed.ended
  have hbalanced := h.isClosed.balanced
  have hcomment := h.comment
  rw [hchunks] at hended hbalanced hcomment
  rw [depthThrough, depthBehind?_of_isOuter houter] at hbalanced
  exact ⟨⟨(List.forall_mem_cons.1 hended).2, hbalanced⟩, (List.forall_mem_cons.1 hcomment).2⟩

/-- A literal ends in a quote. -/
theorem getLast?_splitLiteral (h : splitLiteral q text = some (inside, after)) :
    inside.getLast? = some q := by
  fun_induction splitLiteral q text generalizing inside with
  | case1 => cases h
  | case2 c rest ih =>
    obtain ⟨i, hs, rfl⟩ := (map_inside_eq_some_iff (f := fun i => '\\' :: c :: i)).1 h
    simp [List.getLast?_cons, ih hs]
  | case3 rest =>
    cases h
    rfl
  | case4 c rest _ _ ih =>
    obtain ⟨i, hs, rfl⟩ := map_inside_eq_some_iff.1 h
    simp [List.getLast?_cons, ih hs]

/-- What ends in a blank is a character, if it is no comment. -/
theorem eq_char_of_getLast?_text {k : Chunk} (hk : k ∈ chunks text) (hended : k.isEnded = true)
    (hcomment : k.isComment = false) (hc : isBlank c = true) (h : k.text.getLast? = some c) :
    k = .char c := by
  fun_induction chunks text with
  | case1 => cases hk
  | case2 d rest ih =>
    rcases List.mem_cons.1 hk with rfl | hk
    · rcases chunk_cases_of_not_isComment hcomment with ⟨-, -, hchunk⟩ |
        ⟨inside, after, hquote, hs, hchunk⟩ | ⟨hquote, hslash, hchunk⟩
      · rw [hchunk] at hended
        cases hended
      · rw [hchunk, Chunk.text, List.getLast?_cons, getLast?_splitLiteral hs] at h
        cases h
        -- a blank is no quote
        have houter := isOuter_of_isBlank hc
        simp [isOuter, hquote] at houter
      · rw [hchunk] at h ⊢
        cases h
        rfl
    · exact ih hk

/-- A blank behind can be left out. -/
theorem IsBare.of_concat (h : IsBare (front ++ [c])) (hc : isBlank c = true) : IsBare front := by
  have htext := chunks_flatMap_text (front ++ [c])
  obtain ⟨hended, hbalanced⟩ := h.isClosed
  have hcomment := h.comment
  rcases List.eq_nil_or_concat (chunks (front ++ [c])) with hnil | ⟨cs, k, hcs⟩
  · rw [hnil] at htext
    simp at htext
  rw [List.concat_eq_append] at hcs
  have hmem : k ∈ chunks (front ++ [c]) := by simp [hcs]
  have hne := text_ne_nil_of_mem_chunks hmem
  rw [hcs, List.flatMap_append, List.flatMap_singleton] at htext
  have hlast : k.text.getLast? = some c := by
    have := congrArg List.getLast? htext
    rwa [List.getLast?_append_of_ne_nil _ hne, List.getLast?_concat] at this
  obtain rfl := eq_char_of_getLast?_text hmem (hended k hmem) (hcomment k hmem) hc hlast
  have hfront : cs.flatMap Chunk.text = front := List.append_cancel_right htext
  have hchunks : chunks front = cs := by
    rw [← hfront]
    exact chunks_flatMap_text_of_append hcs
  rw [hcs] at hended hbalanced hcomment
  refine ⟨⟨?_, ?_⟩, ?_⟩
  · rw [hchunks]
    exact fun d hd => hended d (List.mem_append_left _ hd)
  · rw [depthThrough_append_eq] at hbalanced
    obtain ⟨depth, hdepth, hblank⟩ := Option.bind_eq_some_iff.1 hbalanced
    rw [depthThrough, depthBehind?_of_isOuter (isOuter_of_isBlank hc)] at hblank
    cases hblank
    rw [hchunks, hdepth]
  · rw [hchunks]
    exact fun d hd => hcomment d (List.mem_append_left _ hd)

/-- **Trimming leaves a text closed.** -/
theorem isBare_trim (h : IsBare text) : IsBare (trim text) := by
  have hstart : ∀ text, IsBare text → IsBare (trimStart text) := by
    intro text h
    induction text with
    | nil => exact h
    | cons c rest ih =>
      rw [trimStart, List.dropWhile_cons]
      split
      · next hc => exact ih (h.of_cons hc)
      · exact h
  have hend : ∀ gap front : List Char, (∀ c ∈ gap, isBlank c = true) → IsBare (front ++ gap) →
      IsBare front := by
    intro gap
    induction gap with
    | nil =>
      intro front _ h
      rwa [List.append_nil] at h
    | cons c gap ih =>
      intro front hgap h
      obtain ⟨hc, hgap⟩ := List.forall_mem_cons.1 hgap
      rw [List.append_cons] at h
      exact (ih (front ++ [c]) hgap h).of_concat hc
  obtain ⟨gap, hgap, hblank⟩ := exists_trimEnd_append (trimStart text)
  refine hend gap _ hblank ?_
  rw [trim, hgap]
  exact hstart text h

/-- **The entries are what two passes make of the text.** -/
theorem map_text_entries (h : IsClosed inside) (p : Position) :
    (entries p (chunks inside)).map Entry.text = twoPass inside := by
  have hgroups : ∀ group ∈ splitCommas 0 (chunks inside), IsGroup 0 group := fun group hgroup =>
    (isGroup_of_mem_splitCommas h.balanced hgroup).2
  have hbare := isBare_withoutComments h
  have hpieces := pieces_eq hbare.comment hbare.isClosed.ended hbare.isClosed.balanced
  have htext : ∀ group : List Chunk,
      (group.map Chunk.bare).flatMap Chunk.text = group.flatMap Chunk.bareText := by
    intro group
    rw [List.flatMap_map]
    congr 1
    funext k
    cases k <;> rfl
  rw [chunks_withoutComments h.ended, splitCommas_map_bare, List.map_map, Nat.cast_zero] at hpieces
  rw [entries, map_text_groupEntries_eq hgroups, twoPass, dropComments_eq, hpieces, List.map_map]
  simp only [Function.comp_def, htext]

/-- **Every entry of a closed object is closed**, and has no comments. -/
theorem isBare_of_mem_entries (h : IsClosed inside) {p : Position} {e : Entry}
    (he : e ∈ entries p (chunks inside)) : IsBare e.text := by
  have hgroups : ∀ group ∈ splitCommas 0 (chunks inside), group <:+: chunks inside ∧
      IsGroup 0 group := fun group hgroup => isGroup_of_mem_splitCommas h.balanced hgroup
  have hmem : e.text ∈ (entries p (chunks inside)).map Entry.text := List.mem_map_of_mem he
  rw [entries, map_text_groupEntries_eq fun group hgroup => (hgroups group hgroup).2] at hmem
  obtain ⟨group, hgroup, htext⟩ := List.mem_map.1 (List.mem_filter.1 hmem).1
  obtain ⟨hrow, hbalanced⟩ := hgroups group hgroup
  have hchunks := chunks_flatMap_text_of_isInfix hrow
  have hclosed : IsClosed (group.flatMap Chunk.text) := by
    refine ⟨?_, ?_⟩
    · rw [hchunks]
      exact fun k hk => h.ended k (hrow.subset hk)
    · rw [hchunks]
      exact hbalanced.balanced
  have hbare := isBare_trim (isBare_withoutComments hclosed)
  rwa [withoutComments, hchunks, htext] at hbare

/-! ### Brackets that are closed -/

/-- Inside a literal, the reader has not come out of it. -/
theorem Quoting.StaysInside.after_ne {state : Quoting} (h : state.StaysInside (front ++ rest))
    (hrest : rest ≠ []) : state.after front ≠ .outside := by
  induction front generalizing state with
  | nil =>
    obtain ⟨c, rest, rfl⟩ := List.exists_cons_of_ne_nil hrest
    exact h.1
  | cons c front ih => exact ih h.2

/-- **A place outside literals is between two chunks.** -/
theorem exists_chunks_eq_append (hended : AreEnded (chunks text))
    (hcomment : ∀ k ∈ chunks text, k.isComment = false) (htext : text = front ++ rest)
    (hfront : Quoting.outside.after front = .outside) :
    ∃ cs, chunks text = cs ++ chunks rest := by
  fun_induction chunks text generalizing front with
  | case1 =>
    obtain ⟨rfl, rfl⟩ := List.append_eq_nil_iff.1 htext.symm
    exact ⟨[], by simp⟩
  | case2 c behind ih =>
    have hall := chunks_cons c behind
    obtain ⟨hk, hbehindEnded⟩ := List.forall_mem_cons.1 hended
    obtain ⟨hkComment, hbehindComment⟩ := List.forall_mem_cons.1 hcomment
    have hnext : ∀ more, (chunk c behind).2 = more ++ rest →
        Quoting.outside.after more = .outside →
        ∃ cs, (chunk c behind).1 :: chunks (chunk c behind).2 = cs ++ chunks rest := by
      intro more hmore hstate
      obtain ⟨cs, hcs⟩ := ih hbehindEnded hbehindComment hmore hstate
      exact ⟨(chunk c behind).1 :: cs, by rw [hcs, List.cons_append]⟩
    cases front with
    | nil => exact ⟨[], by rw [← hall, htext]; rfl⟩
    | cons d front =>
      obtain ⟨rfl, hbehind⟩ := List.cons.inj htext
      rw [Quoting.after_cons, Quoting.next] at hfront
      rcases chunk_cases_of_not_isComment hkComment with ⟨-, -, hchunk⟩ |
        ⟨inside, after, hquote, hs, hchunk⟩ | ⟨hquote, hslash, hchunk⟩
      · rw [hchunk] at hk
        cases hk
      · obtain ⟨hstays, hoff⟩ := staysInside_of_splitLiteral (ne_backslash_of_isQuote hquote) hs
        rw [if_pos hquote] at hfront
        rw [← splitLiteral_append hs] at hbehind
        rcases List.append_eq_append_iff.1 hbehind with ⟨more, rfl, hafter⟩ | ⟨more, rfl, rfl⟩
        · refine hnext more (by rw [hchunk]; exact hafter) ?_
          rwa [Quoting.after_append, hoff] at hfront
        · -- a place inside the literal is not outside, unless it is the end
          have hmore : more = [] := by
            by_contra hne
            exact hstays.after_ne hne hfront
          subst hmore
          exact hnext [] (by rw [hchunk]; rfl) rfl
      · rw [if_neg (by simp [hquote])] at hfront
        exact hnext front (by rw [hchunk]; exact hbehind) hfront

/-- A bracket that is open is closed, where all are. -/
theorem exists_splitClosing {cs : List Chunk} {k depth : Nat} (hended : AreEnded cs)
    (h : depthThrough (depth + 1 + k) cs = some 0) :
    ∃ found, splitClosing depth cs = some found := by
  induction cs generalizing depth with
  | nil => simp [depthThrough] at h
  | cons c cs ih =>
    obtain ⟨hc, hrest⟩ := List.forall_mem_cons.1 hended
    obtain ⟨j, hj, hdepth⟩ := Option.bind_eq_some_iff.1 h
    have hmap : ∀ {depth' : Nat}, depthThrough (depth' + 1 + k) cs = some 0 →
        splitClosing depth (c :: cs) =
          ((splitClosing depth' cs).map fun s => (c :: s.1, s.2)) →
        ∃ found, splitClosing depth (c :: cs) = some found := by
      intro depth' hrestDepth heq
      obtain ⟨found, hfound⟩ := ih hrest hrestDepth
      exact ⟨_, by rw [heq, hfound, Option.map_some]⟩
    cases c with
    | char d =>
      rcases Chunk.depthBehind?_cases hj with ⟨hopen, rfl⟩ | ⟨hopen, hclose, hj⟩ |
        ⟨hopen, hclose, rfl⟩
      · rw [Nat.add_right_comm] at hdepth
        exact hmap hdepth (by rw [splitClosing.eq_def]; simp [hopen])
      · cases depth with
        | zero => exact ⟨([], cs), by rw [splitClosing.eq_def]; simp [hopen, hclose]⟩
        | succ depth =>
          obtain rfl : j = depth + 1 + k := by omega
          exact hmap hdepth (by rw [splitClosing.eq_def]; simp [hopen, hclose])
      · exact hmap hdepth (by rw [splitClosing.eq_def]; simp [hopen, hclose])
    | literal t =>
      cases hj
      exact hmap hdepth rfl
    | comment t =>
      cases hj
      exact hmap hdepth rfl
    | openLiteral t => cases hc
    | openComment t => cases hc

/-- **Every bracket outside the literals of a closed text is closed.** -/
theorem exists_findClosing_of_isBare (h : IsBare (front ++ b :: back))
    (hfront : Quoting.outside.after front = .outside) (hb : isOpening b = true) :
    ∃ closing, findClosing (front ++ b :: back) (byteSize front) = .ok (some closing) := by
  have hchunk : chunks (b :: back) = .char b :: chunks back := by
    rw [chunks_cons, chunk_of_isOpening hb]
  obtain ⟨cs, hcs⟩ := exists_chunks_eq_append h.isClosed.ended h.comment rfl hfront
  obtain ⟨hended, hbalanced⟩ := h.isClosed
  rw [hcs, hchunk] at hended hbalanced
  rw [depthThrough_append_eq] at hbalanced
  obtain ⟨k, -, hback⟩ := Option.bind_eq_some_iff.1 hbalanced
  have hopen : (Chunk.char b).depthBehind? k = some (k + 1) := by simp [Chunk.depthBehind?, hb]
  rw [depthThrough, hopen] at hback
  have hbackEnded : AreEnded (chunks back) := fun d hd =>
    hended d (List.mem_append_right _ (List.mem_cons_of_mem _ hd))
  obtain ⟨found, hfound⟩ := exists_splitClosing hbackEnded
    (show depthThrough (0 + 1 + k) (chunks back) = some 0 by
      rw [Nat.zero_add, Nat.add_comm]
      exact hback)
  rw [findClosing_eq hb, hfound]
  exact ⟨_, rfl⟩

end

end SchemaForge.Declaration
