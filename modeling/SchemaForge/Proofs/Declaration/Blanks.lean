import SchemaForge.Proofs.Declaration.Body
import SchemaForge.Proofs.Declaration.Order
import SchemaForge.Proofs.Declaration.Squeezed

/-!
# Blanks in place of comments

A comment may be overwritten with blanks, one for each of its characters, and its line breaks
kept.  The text is then cut into the same chunks, with a row of blanks where each comment stood,
and nothing behind it moves: every bracket closes and every comma separates where it did, and an
entry has the place that it had and a text that differs in its runs of blanks only.

## Main definitions

* `Chunk.blanks` — a chunk, or the blanks in place of a comment.
* `withBlanks` — a text with blanks in place of its comments.

## Main results

* `chunks_withBlanks` — the chunks of the text.
* `splitClosing_flatMap_blanks`, `splitCommas_flatMap_blanks` — the two searches.
* `squeezed_entries_flatMap_blanks` — **the entries stand where they stood, and have the same
  normal form.**
-/

namespace SchemaForge.Declaration

open Text

/-! ### Chunks -/

/-- The blank in place of a character: a line break stays, and all else becomes a space. -/
def blankChar (c : Char) : Char :=
  if c = '\n' ∨ c = '\r' then c else ' '

/-- Blanks in place of the characters of a text. -/
def blankRow (text : List Char) : List Chunk :=
  text.map fun c => .char (blankChar c)

/-- The chunks in place of a chunk: blanks for a comment. -/
def Chunk.blanks : Chunk → List Chunk
  | comment t => blankRow t
  | openComment t => blankRow t
  | other => [other]

/-- A text with blanks in place of its comments. -/
def withBlanks (text : List Char) : List Char :=
  ((chunks text).flatMap Chunk.blanks).flatMap Chunk.text

section

variable {c : Char} {rest text : List Char}

theorem blankChar_cases (c : Char) :
    blankChar c = ' ' ∨ blankChar c = '\n' ∨ blankChar c = '\r' := by
  rw [blankChar]
  split
  · next h => exact .inr h
  · exact .inl rfl

theorem blankChar_eq_newline_iff : blankChar c = '\n' ↔ c = '\n' := by
  rw [blankChar]
  split
  · exact Iff.rfl
  · next h =>
    rw [not_or] at h
    exact ⟨fun hspace => absurd hspace (by decide), fun hc => absurd hc h.1⟩

theorem isBlank_blankChar (c : Char) : isBlank (blankChar c) = true := by
  rcases blankChar_cases c with h | h | h <;> rw [h] <;> decide

/-- A blank means nothing to the search for brackets or commas. -/
theorem isOuter_blankChar (c : Char) : isOuter (blankChar c) = true := by
  rcases blankChar_cases c with h | h | h <;> rw [h] <;> decide

theorem isFiller_blankChar (c : Char) : (Chunk.char (blankChar c)).isFiller = true := by
  rcases blankChar_cases c with h | h | h <;> rw [h] <;> decide

theorem isEntryText_map_blankChar (text : List Char) : IsEntryText (text.map blankChar) := by
  refine isEntryText_of_isOuter fun c hc => ?_
  obtain ⟨d, -, rfl⟩ := List.mem_map.1 hc
  exact isOuter_blankChar d

@[simp] theorem flatMap_text_blankRow (text : List Char) :
    (blankRow text).flatMap Chunk.text = text.map blankChar := by
  rw [blankRow, List.flatMap_map]
  exact List.map_eq_flatMap.symm

/-- Blanks are cut off a text one by one. -/
theorem chunks_map_blankChar_append (text more : List Char) :
    chunks (text.map blankChar ++ more) = blankRow text ++ chunks more := by
  have hplain : IsPlain (text.map blankChar) := by
    refine isPlain_of_isOuter fun c hc => ?_
    obtain ⟨d, -, rfl⟩ := List.mem_map.1 hc
    exact isOuter_blankChar d
  rw [chunks_plain_append hplain, List.map_map]
  rfl

theorem chunks_map_blankChar (text : List Char) : chunks (text.map blankChar) = blankRow text := by
  have h := chunks_map_blankChar_append text []
  rwa [List.append_nil, chunks_nil, List.append_nil] at h

theorem Chunk.blanks_of_not_isComment {k : Chunk} (h : k.isComment = false) : k.blanks = [k] := by
  cases k with
  | comment t => cases h
  | openComment t => cases h
  | _ => rfl

theorem Chunk.blanks_of_isComment {k : Chunk} (h : k.isComment = true) :
    k.blanks = blankRow k.text := by
  cases k with
  | comment t => rfl
  | openComment t => rfl
  | _ => cases h

/-! ### The chunks of the text -/

@[simp] theorem withBlanks_nil : withBlanks [] = [] := by
  simp [withBlanks]

theorem withBlanks_cons (c : Char) (rest : List Char) :
    withBlanks (c :: rest) =
      (chunk c rest).1.blanks.flatMap Chunk.text ++ withBlanks (chunk c rest).2 := by
  rw [withBlanks, chunks_cons, List.flatMap_cons, List.flatMap_append, withBlanks]

/-- A chunk starts as the text does. -/
theorem exists_text_chunk (c : Char) (rest : List Char) :
    ∃ t, (chunk c rest).1.text = c :: t := by
  unfold chunk
  repeat' split
  all_goals exact ⟨_, rfl⟩

/-- The first character is that of the text, or a blank. -/
theorem BreaksSlash.withBlanks (h : BreaksSlash text) : BreaksSlash (withBlanks text) := by
  cases text with
  | nil => simpa using h
  | cons c rest =>
    obtain ⟨t, ht⟩ := exists_text_chunk c rest
    rw [withBlanks_cons]
    cases hcomment : (chunk c rest).1.isComment with
    | false =>
      rw [Chunk.blanks_of_not_isComment hcomment, List.flatMap_singleton, ht]
      exact breaksSlash_cons.2 (breaksSlash_cons.1 h)
    | true =>
      rw [Chunk.blanks_of_isComment hcomment, ht, flatMap_text_blankRow]
      refine breaksSlash_cons.2 ?_
      rcases blankChar_cases c with h | h | h <;> rw [h] <;> decide

/-- **With blanks in place of its comments, a text has the same chunks**, and rows of blanks where
the comments stood. -/
theorem chunks_withBlanks (text : List Char) :
    chunks (withBlanks text) = (chunks text).flatMap Chunk.blanks := by
  fun_induction chunks text with
  | case1 => simp
  | case2 c rest ih =>
    rw [withBlanks_cons, List.flatMap_cons, ← ih]
    cases hcomment : (chunk c rest).1.isComment with
    | false =>
      rw [Chunk.blanks_of_not_isComment hcomment, List.flatMap_singleton, List.singleton_append]
      rcases chunk_cases_of_not_isComment hcomment with
        ⟨hquote, hsplit, hchunk⟩ | ⟨inside, after, hquote, hsplit, hchunk⟩ |
        ⟨hquote, hslash, hchunk⟩
      · rw [hchunk, withBlanks_nil, Chunk.text, List.append_nil, chunks_cons, hchunk]
      · -- the literal ends where it ended, now in front of what is left behind it
        have hinside := splitLiteral_append_right (ne_backslash_of_isQuote hquote)
          (splitLiteral_inside hsplit) (withBlanks after)
        rw [hchunk, Chunk.text, List.cons_append, chunks_cons, chunk_quote hquote hinside,
          List.nil_append]
      · rw [hchunk, Chunk.text, List.singleton_append, chunks_cons,
          chunk_eq_char hquote (hslash.imp_right BreaksSlash.withBlanks)]
    | true =>
      rw [Chunk.blanks_of_isComment hcomment, flatMap_text_blankRow, chunks_map_blankChar_append]

/-! ### The two searches -/

theorem splitClosing_blankRow_append (text : List Char) (depth : Nat) (cs : List Chunk) :
    splitClosing depth (blankRow text ++ cs) =
      (splitClosing depth cs).map fun (inside, rest) => (blankRow text ++ inside, rest) := by
  have hclosed := (isEntryText_map_blankChar text).isClosed
  have hsplit := splitClosing_append hclosed.ended hclosed.balanced depth cs
  rwa [chunks_map_blankChar, Nat.zero_add] at hsplit

theorem eq_nil_of_chunk_openComment {t : List Char} (h : (chunk c rest).1 = .openComment t) :
    (chunk c rest).2 = [] := by
  have hcomment : (chunk c rest).1.isComment = true := by rw [h, Chunk.isComment]
  obtain ⟨rfl, line, rfl | rfl⟩ := exists_mark_of_isComment hcomment
  · cases h
  · cases hblock : splitBlockComment line with
    | some split =>
      rw [chunk_block hblock] at h
      cases h
    | none =>
      unfold chunk
      simp [isQuote, hblock]

/-- **A bracket closes where it closed.** -/
theorem splitClosing_flatMap_blanks (depth : Nat) (text : List Char) :
    splitClosing depth ((chunks text).flatMap Chunk.blanks) =
      (splitClosing depth (chunks text)).map fun (inside, rest) =>
        (inside.flatMap Chunk.blanks, rest.flatMap Chunk.blanks) := by
  fun_induction chunks text generalizing depth with
  | case1 => rfl
  | case2 c rest ih =>
    rw [List.flatMap_cons]
    cases hchunk : (chunk c rest).1 with
    | char e =>
      rw [Chunk.blanks_of_not_isComment rfl, List.singleton_append, splitClosing.eq_def,
        splitClosing.eq_def]
      dsimp only
      split
      · rw [ih, Option.map_map, Option.map_map]
        rfl
      · split
        · cases depth with
          | zero => rfl
          | succ depth =>
            dsimp only
            rw [ih, Option.map_map, Option.map_map]
            rfl
        · rw [ih, Option.map_map, Option.map_map]
          rfl
    | literal t =>
      rw [Chunk.blanks_of_not_isComment rfl, List.singleton_append, splitClosing, ih, splitClosing,
        Option.map_map, Option.map_map]
      rfl
    | comment t =>
      rw [Chunk.blanks, splitClosing_blankRow_append, ih, splitClosing, Option.map_map,
        Option.map_map]
      rfl
    | openLiteral t => rfl
    | openComment t =>
      rw [Chunk.blanks, splitClosing_blankRow_append, eq_nil_of_chunk_openComment hchunk]
      simp [splitClosing]

theorem splitCommas_blankRow_append (text : List Char) (depth : Nat) (cs : List Chunk) :
    splitCommas depth (blankRow text ++ cs) =
      (blankRow text).foldr consFirst (splitCommas depth cs) := by
  have hentry := isEntryText_map_blankChar text
  rw [← chunks_map_blankChar]
  cases depth with
  | zero => exact hentry.splitCommas_append cs
  | succ depth =>
    have hsplit := splitCommas_append hentry.isClosed.balanced depth cs
    rwa [Nat.zero_add] at hsplit

/-- **A comma separates where it separated.** -/
theorem splitCommas_flatMap_blanks (depth : Nat) (cs : List Chunk) :
    splitCommas depth (cs.flatMap Chunk.blanks) =
      (splitCommas depth cs).map (·.flatMap Chunk.blanks) := by
  induction cs generalizing depth with
  | nil => rfl
  | cons k cs ih =>
    rw [List.flatMap_cons, splitCommas]
    by_cases hcomma : k = .char ',' ∧ depth = 0
    · obtain ⟨rfl, rfl⟩ := hcomma
      rw [if_pos ⟨rfl, rfl⟩, Chunk.blanks_of_not_isComment rfl, List.singleton_append, splitCommas,
        if_pos ⟨rfl, rfl⟩, ih]
      rfl
    · rw [if_neg hcomma, map_flatMap_consFirst _ _ (splitCommas_ne_nil _ _), ← ih]
      cases hcomment : k.isComment with
      | false =>
        rw [Chunk.blanks_of_not_isComment hcomment, List.singleton_append, splitCommas,
          if_neg hcomma]
        rfl
      | true =>
        have hdepth : k.depthAfter depth = depth := by
          cases k with
          | comment t => rfl
          | openComment t => rfl
          | _ => cases hcomment
        rw [Chunk.blanks_of_isComment hcomment, splitCommas_blankRow_append, hdepth]

/-! ### Places -/

theorem next_blankChar (p : Position) (c : Char) : p.next (blankChar c) = p.next c := by
  simp only [Position.next, blankChar_eq_newline_iff]

theorem after_map_blankChar (p : Position) (text : List Char) :
    p.after (text.map blankChar) = p.after text := by
  induction text generalizing p with
  | nil => rfl
  | cons c text ih =>
    rw [List.map_cons, Position.after_cons, Position.after_cons, next_blankChar, ih]

/-- What is behind some chunks does not move. -/
theorem after_flatMap_blanks (p : Position) (cs : List Chunk) :
    p.after ((cs.flatMap Chunk.blanks).flatMap Chunk.text) = p.after (cs.flatMap Chunk.text) := by
  induction cs generalizing p with
  | nil => rfl
  | cons k cs ih =>
    rw [List.flatMap_cons, List.flatMap_append, Position.after_append, List.flatMap_cons,
      Position.after_append, ih]
    cases hcomment : k.isComment with
    | false => rw [Chunk.blanks_of_not_isComment hcomment, List.flatMap_singleton]
    | true =>
      rw [Chunk.blanks_of_isComment hcomment, flatMap_text_blankRow, after_map_blankChar]

theorem length_flatMap_blanks (cs : List Chunk) :
    ((cs.flatMap Chunk.blanks).flatMap Chunk.text).length = (cs.flatMap Chunk.text).length := by
  induction cs with
  | nil => rfl
  | cons k cs ih =>
    rw [List.flatMap_cons, List.flatMap_append, List.length_append, List.flatMap_cons,
      List.length_append, ih]
    cases hcomment : k.isComment with
    | false => rw [Chunk.blanks_of_not_isComment hcomment, List.flatMap_singleton]
    | true =>
      rw [Chunk.blanks_of_isComment hcomment, flatMap_text_blankRow, List.length_map]

theorem firstPosition?_blankRow_append (p : Position) (text : List Char) (cs : List Chunk) :
    firstPosition? p (blankRow text ++ cs) = firstPosition? (p.after text) cs := by
  induction text generalizing p with
  | nil => rfl
  | cons c text ih =>
    have hrow : blankRow (c :: text) = .char (blankChar c) :: blankRow text := rfl
    have hchar : (Chunk.char (blankChar c)).text = [blankChar c] := rfl
    rw [hrow, List.cons_append, firstPosition?, if_pos (isFiller_blankChar c), hchar, ih,
      Position.after_cons, Position.after_nil, next_blankChar, Position.after_cons]

/-- **An entry starts where it started.** -/
theorem firstPosition?_flatMap_blanks (p : Position) (group : List Chunk) :
    firstPosition? p (group.flatMap Chunk.blanks) = firstPosition? p group := by
  induction group generalizing p with
  | nil => rfl
  | cons k group ih =>
    rw [List.flatMap_cons]
    cases hcomment : k.isComment with
    | false =>
      rw [Chunk.blanks_of_not_isComment hcomment, List.singleton_append, firstPosition?,
        firstPosition?, ih]
    | true =>
      have hfiller : k.isFiller = true := by
        cases k with
        | comment t => rfl
        | openComment t => rfl
        | _ => cases hcomment
      rw [Chunk.blanks_of_isComment hcomment, firstPosition?_blankRow_append, ih, firstPosition?,
        if_pos hfiller]

/-! ### Entries -/

/-- A comment leaves blanks: it has its marks. -/
theorem text_ne_nil_of_mem_chunks {k : Chunk} (h : k ∈ chunks text) : k.text ≠ [] := by
  fun_induction chunks text with
  | case1 => cases h
  | case2 c rest ih =>
    rcases List.mem_cons.1 h with rfl | h
    · obtain ⟨t, ht⟩ := exists_text_chunk c rest
      rw [ht]
      exact List.cons_ne_nil c t
    · exact ih h

theorem mem_of_mem_splitCommas {depth : Nat} {cs group : List Chunk}
    (hgroup : group ∈ splitCommas depth cs) : ∀ k ∈ group, k ∈ cs := by
  induction cs generalizing depth group with
  | nil =>
    rw [splitCommas, List.mem_singleton] at hgroup
    simp [hgroup]
  | cons c cs ih =>
    intro k hk
    rw [splitCommas] at hgroup
    split at hgroup
    · rcases List.mem_cons.1 hgroup with rfl | hgroup
      · cases hk
      · exact List.mem_cons_of_mem c (ih hgroup k hk)
    · obtain ⟨first, groups, hsplit⟩ :=
        List.exists_cons_of_ne_nil (splitCommas_ne_nil (c.depthAfter depth) cs)
      rw [hsplit, consFirst] at hgroup
      have hmem : ∀ g ∈ first :: groups, ∀ d ∈ g, d ∈ cs := fun g hg => ih (hsplit ▸ hg)
      rcases List.mem_cons.1 hgroup with rfl | hgroup
      · rcases List.mem_cons.1 hk with rfl | hk
        · exact List.mem_cons_self ..
        · exact List.mem_cons_of_mem c (hmem first (List.mem_cons_self ..) k hk)
      · exact List.mem_cons_of_mem c (hmem group (List.mem_cons_of_mem first hgroup) k hk)

/-- A comment is one space of the entry, and its blanks are as good as one. -/
theorem squeeze_bareText_blanks {group : List Chunk} (h : ∀ k ∈ group, k.text ≠ []) :
    squeeze ((group.flatMap Chunk.blanks).flatMap Chunk.bareText) =
      squeeze (group.flatMap Chunk.bareText) := by
  induction group with
  | nil => rfl
  | cons k group ih =>
    obtain ⟨hk, hgroup⟩ := List.forall_mem_cons.1 h
    rw [List.flatMap_cons, List.flatMap_append, List.flatMap_cons]
    cases hcomment : k.isComment with
    | false =>
      rw [Chunk.blanks_of_not_isComment hcomment, List.flatMap_singleton]
      exact squeeze_append_congr _ (ih hgroup)
    | true =>
      have hspace : k.bareText = [' '] := by
        cases k with
        | comment t => rfl
        | openComment t => rfl
        | _ => cases hcomment
      have hrow : (blankRow k.text).flatMap Chunk.bareText = k.text.map blankChar := by
        rw [← flatMap_text_blankRow, blankRow, List.flatMap_map, List.flatMap_map]
        rfl
      have hblank : ∀ c ∈ k.text.map blankChar, isBlank c = true := by
        intro c hc
        obtain ⟨d, -, rfl⟩ := List.mem_map.1 hc
        exact isBlank_blankChar d
      rw [Chunk.blanks_of_isComment hcomment, hrow, hspace,
        squeeze_append_of_isBlank hblank (mt List.map_eq_nil_iff.1 hk)]
      exact squeeze_append_congr [' '] (ih hgroup)

/-- An entry in its normal form. -/
def Entry.squeezed (e : Entry) : Entry :=
  { e with text := squeeze e.text }

/-- The normal form of an entry is made from that of its group. -/
theorem map_squeezed_entryAt (p : Position) (group : List Chunk) :
    (entryAt p group).map Entry.squeezed =
      if trim (squeeze (group.flatMap Chunk.bareText)) = [] then none
      else (firstPosition? p group).map fun position =>
        ⟨trim (squeeze (group.flatMap Chunk.bareText)), position⟩ := by
  rw [trim_squeeze, entryAt]
  cases trim (group.flatMap Chunk.bareText) with
  | nil => rfl
  | cons c text =>
    rw [if_neg (mt squeeze_eq_nil_iff.1 (List.cons_ne_nil c text))]
    cases firstPosition? p group <;> rfl

theorem squeezed_entryAt_blanks {group : List Chunk} (h : ∀ k ∈ group, k.text ≠ [])
    (p : Position) :
    (entryAt p (group.flatMap Chunk.blanks)).map Entry.squeezed =
      (entryAt p group).map Entry.squeezed := by
  rw [map_squeezed_entryAt, squeeze_bareText_blanks h, firstPosition?_flatMap_blanks,
    map_squeezed_entryAt]

theorem squeezed_groupEntries_blanks {groups : List (List Chunk)}
    (h : ∀ group ∈ groups, ∀ k ∈ group, k.text ≠ []) (p : Position) :
    (groupEntries p (groups.map (·.flatMap Chunk.blanks))).map Entry.squeezed =
      (groupEntries p groups).map Entry.squeezed := by
  induction groups generalizing p with
  | nil => rfl
  | cons group groups ih =>
    obtain ⟨hgroup, hgroups⟩ := List.forall_mem_cons.1 h
    have hentry := congrArg Option.toList (squeezed_entryAt_blanks hgroup p)
    rw [Option.toList_map, Option.toList_map] at hentry
    rw [List.map_cons, groupEntries, List.map_append, hentry, after_flatMap_blanks, ih hgroups,
      groupEntries, List.map_append]

/-- **The entries stand where they stood, and have the same normal form.** -/
theorem squeezed_entries_flatMap_blanks {inside : List Chunk} (h : ∀ k ∈ inside, k.text ≠ [])
    (p : Position) :
    (entries p (inside.flatMap Chunk.blanks)).map Entry.squeezed =
      (entries p inside).map Entry.squeezed := by
  rw [entries, splitCommas_flatMap_blanks, entries]
  exact squeezed_groupEntries_blanks
    (fun group hgroup k hk => h k (mem_of_mem_splitCommas hgroup k hk)) p

end

end SchemaForge.Declaration
