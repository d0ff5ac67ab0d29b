import SchemaForge.Proofs.Declaration.Scanner
import SchemaForge.Proofs.Text.Place

/-!
# Splitting by bytes and by characters

A scanner that splits an object keeps the text of an entry up to the last comment, the offset
behind that comment and the offset where the entry starts.  What it keeps is what the chunks read
so far make of the entry, and stays so from chunk to chunk.  At the end of the object it has the
entries that the groups of chunks between the outer commas are; and where the object is closed, it
never had to fall back on anything.

## Main definitions

* `firstFront?` — the text in front of where an entry starts.
* `SplitState.Holds` — what a scanner keeps of the chunks that it has read of an entry.

## Main results

* `lineColumn_eq` — the position of an offset is counted.
* `SplitState.Holds.push` — **what a scanner keeps stays true from chunk to chunk.**
* `splitFrom_eq`, `splitEntries_eq` — **a scanner splits an object into its entries.**
-/

namespace SchemaForge.Declaration

open Text

/-! ### Positions -/

section

variable {text front back : List Char} {n : Nat}

theorem not_mem_of_lastNewline?_eq_none (h : lastNewline? text = none) : '\n' ∉ text := by
  induction text with
  | nil => exact List.not_mem_nil
  | cons c rest ih =>
    rw [lastNewline?] at h
    cases hrest : lastNewline? rest with
    | some n =>
      rw [hrest] at h
      cases h
    | none =>
      rw [hrest] at h
      dsimp only at h
      rw [List.mem_cons, not_or]
      refine ⟨fun hc => ?_, ih hrest⟩
      rw [if_pos hc.symm] at h
      cases h

/-- The last line feed of a text stands in front of its last line. -/
theorem exists_of_lastNewline? (h : lastNewline? text = some n) :
    ∃ front line, text = front ++ '\n' :: line ∧ n = byteSize front ∧ '\n' ∉ line := by
  induction text generalizing n with
  | nil => cases h
  | cons c rest ih =>
    rw [lastNewline?] at h
    cases hrest : lastNewline? rest with
    | some m =>
      rw [hrest] at h
      cases h
      obtain ⟨front, line, rfl, rfl, hline⟩ := ih hrest
      exact ⟨c :: front, line, rfl, rfl, hline⟩
    | none =>
      rw [hrest] at h
      dsimp only at h
      split at h
      · next hc =>
        subst hc
        cases h
        exact ⟨[], rest, rfl, rfl, not_mem_of_lastNewline?_eq_none hrest⟩
      · cases h

theorem slice_append (front inside back : List Char) :
    slice (front ++ (inside ++ back)) (byteSize front) (byteSize front + byteSize inside) =
      .ok inside := by
  rw [slice, slice?_append]

theorem slice_append_right (front back : List Char) :
    slice (front ++ back) (byteSize front) (byteSize (front ++ back)) = .ok back := by
  simpa [byteSize_append] using slice_append front back []

/-- **The position of an offset is counted.** -/
theorem lineColumn_eq (front back : List Char) :
    lineColumn (front ++ back) (byteSize front) = .ok (placeBehind front) := by
  have hbefore : slice (front ++ back) 0 (byteSize front) = .ok front := by
    simpa using slice_append [] front back
  have hposition : ∀ lines line : List Char, '\n' ∉ line → front = lines ++ line →
      (lines.reverse.takeWhile (· ≠ '\n')) = [] →
      (⟨front.count '\n' + 1, line.length + 1⟩ : Position) = placeBehind front := by
    rintro lines line hline rfl hlines
    rw [placeBehind, takeWhile_reverse_line hline, hlines, List.length_nil, Nat.add_comm _ 1,
      Nat.add_comm _ 1, Nat.add_zero]
  rw [lineColumn, hbefore]
  cases hlast : lastNewline? front with
  | none =>
    have hline : slice front 0 (byteSize front) = .ok front := slice_append_right [] front
    have hplace := hposition [] front (not_mem_of_lastNewline?_eq_none hlast) rfl rfl
    simp only [bind, Except.bind, hlast, hline, hplace]
    rfl
  | some n =>
    obtain ⟨lines, line, hfront, rfl, hline⟩ := exists_of_lastNewline? hlast
    have hfront : front = (lines ++ ['\n']) ++ line := by simpa using hfront
    have hsize : byteSize lines + 1 = byteSize (lines ++ ['\n']) :=
      (byteSize_concat_of_lt (by decide) lines).symm
    have hslice : slice front (byteSize lines + 1) (byteSize front) = .ok line := by
      rw [hsize, hfront]
      exact slice_append_right _ line
    have hplace := hposition _ line hline hfront (by simp)
    simp only [bind, Except.bind, hlast, hslice, hplace]
    rfl

end

/-! ### Where an entry starts -/

section

variable {front : List Char} {k : Chunk} {group : List Chunk}

/-- The text in front of the first chunk that is no filler of a group, which stands behind a
text. -/
def firstFront? (front : List Char) : List Chunk → Option (List Char)
  | [] => none
  | k :: group => if k.isFiller then firstFront? (front ++ k.text) group else some front

theorem firstPosition?_placeBehind (front : List Char) (group : List Chunk) :
    firstPosition? (placeBehind front) group = (firstFront? front group).map placeBehind := by
  induction group generalizing front with
  | nil => rfl
  | cons k group ih =>
    rw [firstPosition?, firstFront?, placeBehind_after, ih]
    split <;> rfl

theorem firstFront?_concat (front : List Char) (group : List Chunk) (k : Chunk) :
    firstFront? front (group ++ [k]) =
      (firstFront? front group).or
        (if k.isFiller then none else some (front ++ group.flatMap Chunk.text)) := by
  induction group generalizing front with
  | nil =>
    rw [List.nil_append, firstFront?, List.flatMap_nil, List.append_nil]
    rfl
  | cons d group ih =>
    rw [List.cons_append, firstFront?, firstFront?, ih, List.flatMap_cons, List.append_assoc]
    split <;> rfl

/-- An entry starts in its group. -/
theorem isPrefix_of_firstFront? {before : List Char} (h : firstFront? front group = some before) :
    before <+: front ++ group.flatMap Chunk.text := by
  induction group generalizing front with
  | nil => cases h
  | cons k group ih =>
    rw [firstFront?] at h
    rw [List.flatMap_cons, ← List.append_assoc]
    split at h
    · exact ih h
    · cases h
      rw [List.append_assoc]
      exact List.prefix_append ..

end

/-! ### What a scanner keeps -/

/-- What a scanner keeps of the chunks `done` that it has read of an entry, whose group starts
behind `front`. -/
structure SplitState.Holds (s : SplitState) (front : List Char) (done : List Chunk) : Prop where
  /-- The text of the entry is what it keeps of it and what stands behind the last comment. -/
  text : ∃ before piece, front ++ done.flatMap Chunk.text = before ++ piece ∧
    s.start = byteSize before ∧ s.current ++ piece = done.flatMap Chunk.bareText
  /-- The entry starts where its first chunk does. -/
  first : s.first = (firstFront? front done).map byteSize

section

variable {s : SplitState} {source front back : List Char} {done : List Chunk} {k : Chunk}

/-- Behind a comma, nothing of the entry was read. -/
theorem SplitState.holds_nil (hcurrent : s.current = []) (hstart : s.start = byteSize front)
    (hfirst : s.first = none) : s.Holds front [] where
  text := ⟨front, [], by simp, hstart, by simp [hcurrent]⟩
  first := hfirst

namespace SplitState.Holds

/-- The text behind the last comment is cut where a chunk ends. -/
theorem exists_slice (h : s.Holds front done)
    (hsource : source = front ++ done.flatMap Chunk.text ++ back) :
    ∃ piece, slice source s.start (byteSize (front ++ done.flatMap Chunk.text)) = .ok piece ∧
      s.current ++ piece = done.flatMap Chunk.bareText := by
  obtain ⟨before, piece, htext, hstart, hcurrent⟩ := h.text
  refine ⟨piece, ?_, hcurrent⟩
  rw [hsource, htext, hstart, List.append_assoc, byteSize_append]
  exact slice_append before piece back

/-- A chunk that is no comment is kept as it stands. -/
theorem push (h : s.Holds front done) (hk : k.bareText = k.text) {s' : SplitState}
    (hcurrent : s'.current = s.current) (hstart : s'.start = s.start)
    (hfirst : s'.first = if k.isFiller then s.first else
      s.first.or (some (byteSize (front ++ done.flatMap Chunk.text)))) :
    s'.Holds front (done ++ [k]) where
  text := by
    obtain ⟨before, piece, htext, hbefore, hpiece⟩ := h.text
    refine ⟨before, piece ++ k.text, ?_, hstart.trans hbefore, ?_⟩
    · rw [List.flatMap_append, List.flatMap_singleton, ← List.append_assoc, htext,
        List.append_assoc]
    · rw [List.flatMap_append, List.flatMap_singleton, hk, ← hpiece, hcurrent, List.append_assoc]
  first := by
    rw [hfirst, firstFront?_concat, h.first]
    split
    · rw [Option.or_none]
    · cases firstFront? front done <;> rfl

/-- A comment is kept as a space. -/
theorem push_comment (h : s.Holds front done) (t : List Char) {s' : SplitState}
    (hcurrent : s'.current = done.flatMap Chunk.bareText ++ [' '])
    (hstart : s'.start = byteSize (front ++ done.flatMap Chunk.text ++ t))
    (hfirst : s'.first = s.first) : s'.Holds front (done ++ [.comment t]) where
  text := by
    refine ⟨front ++ done.flatMap Chunk.text ++ t, [], ?_, hstart, ?_⟩
    · rw [List.flatMap_append, List.flatMap_singleton, List.append_nil, List.append_assoc]
      rfl
    · rw [hcurrent, List.append_nil, List.flatMap_append]
      rfl
  first := by
    rw [hfirst, firstFront?_concat, h.first]
    exact congrArg _ (Option.or_none).symm

end SplitState.Holds

/-- **What was kept of a group makes its entry.** -/
theorem flush_eq (hcurrent : s.current = done.flatMap Chunk.bareText)
    (hfirst : s.first = (firstFront? front done).map byteSize)
    (hsource : source = front ++ done.flatMap Chunk.text ++ back) :
    s.flush source = .ok { s with
      current := []
      first := none
      entries := s.entries ++ (entryAt (placeBehind front) done).toList } := by
  rw [SplitState.flush, entryAt, hcurrent, hfirst, firstPosition?_placeBehind]
  cases hfront : firstFront? front done with
  | none => cases trim (done.flatMap Chunk.bareText) <;> simp <;> rfl
  | some before =>
    obtain ⟨more, hmore⟩ := isPrefix_of_firstFront? hfront
    have hposition : lineColumn source (byteSize before) = .ok (placeBehind before) := by
      rw [hsource, ← hmore, List.append_assoc]
      exact lineColumn_eq before (more ++ back)
    cases trim (done.flatMap Chunk.bareText) with
    | nil => simp; rfl
    | cons c text =>
      simp only [Option.map_some, hposition]
      rfl

/-- A group is cut off where it ends. -/
theorem SplitState.Holds.exists_flush (h : s.Holds front done)
    (hsource : source = front ++ done.flatMap Chunk.text ++ back) :
    ∃ piece, slice source s.start (byteSize (front ++ done.flatMap Chunk.text)) = .ok piece ∧
      SplitState.flush { s with current := s.current ++ piece } source = .ok { s with
        current := []
        first := none
        entries := s.entries ++ (entryAt (placeBehind front) done).toList } := by
  obtain ⟨piece, hslice, hcurrent⟩ := h.exists_slice hsource
  have hfirst : (({ s with current := s.current ++ piece } : SplitState).first) =
      (firstFront? front done).map byteSize := h.first
  exact ⟨piece, hslice, flush_eq hcurrent hfirst hsource⟩

theorem SplitState.Holds.start_le (h : s.Holds front done) :
    s.start ≤ byteSize (front ++ done.flatMap Chunk.text) := by
  obtain ⟨before, piece, htext, hstart, -⟩ := h.text
  rw [htext, hstart, byteSize_append]
  exact Nat.le_add_right _ _

end

/-! ### Step by step -/

section

variable {fallbacks : Fallbacks} {source front rest : List Char} {s : SplitState}
  {stop i : Nat} {c : Char}

theorem check_true (fallbacks : Fallbacks) (fault : ScanFault) :
    fallbacks.check fault true = .ok () := by
  cases fallbacks <;> rfl

/-- A scanner at a byte by itself. -/
theorem splitFrom_byte (hi : i < stop) (h : itemAt (utf8 source) i = .ok (.byte c)) :
    splitFrom fallbacks source stop s i =
      let s := { s with
        first := if isAsciiBlank c || c == ',' then s.first else s.first.or (some i) }
      if isOpening c then
        splitFrom fallbacks source stop { s with depth := s.depth + 1 } (i + 1)
      else if isClosing c then do
        fallbacks.check .unopened (0 < s.depth)
        splitFrom fallbacks source stop { s with depth := s.depth - 1 } (i + 1)
      else if c = ',' ∧ s.depth = 0 then do
        let piece ← slice source s.start i
        let s ← { s with current := s.current ++ piece }.flush source
        splitFrom fallbacks source stop { s with start := i + 1 } (i + 1)
      else splitFrom fallbacks source stop s (i + 1) := by
  rw [splitFrom, if_pos hi]
  split <;> simp_all

/-- A scanner at a literal that ends in front of the end of the object. -/
theorem splitFrom_literal {last : Nat} (hi : i < stop) (hlast : last < stop)
    (h : itemAt (utf8 source) i = .ok (.literal (some last))) :
    splitFrom fallbacks source stop s i =
      splitFrom fallbacks source stop { s with first := s.first.or (some i) } (last + 1) := by
  rw [splitFrom, if_pos hi]
  split <;> simp_all [check_true, Nat.min_eq_left (Nat.le_of_lt hlast)]
  rfl

/-- A scanner at a comment that ends in front of the end of the object. -/
theorem splitFrom_comment {last : Nat} (hi : i < stop) (hlast : last < stop)
    (h : itemAt (utf8 source) i = .ok (.comment (some last))) :
    splitFrom fallbacks source stop s i =
      (slice source s.start i).bind fun piece =>
        splitFrom fallbacks source stop
          { s with current := s.current ++ (piece ++ [' ']), start := last + 1 } (last + 1) := by
  rw [splitFrom, if_pos hi]
  split <;> simp_all [check_true]
  rfl

/-- A scanner at a byte that is none of ASCII. -/
theorem splitFrom_of_le {b : UInt8} (hi : i < stop) (h : (utf8 source)[i]? = some b)
    (hb : 128 ≤ b.toNat) :
    splitFrom fallbacks source stop s i =
      splitFrom fallbacks source stop { s with first := s.first.or (some i) } (i + 1) := by
  have hbyte : 128 ≤ (byteChar b).toNat := by rwa [toNat_byteChar]
  have hcomma : byteChar b ≠ ',' := ne_of_le hbyte (by decide)
  have hfiller : (isAsciiBlank (byteChar b) || byteChar b == ',') = false := isFiller_of_le hbyte
  rw [splitFrom_byte hi (itemAt_of_le h hb)]
  simp only [hfiller, isOpening_of_le hbyte, isClosing_of_le hbyte, hcomma, false_and,
    Bool.false_eq_true, if_false]

/-- **A scanner at a character by itself**, of however many bytes. -/
theorem splitFrom_char (h : (chunk c rest).1 = .char c)
    (hstop : byteSize (front ++ [c]) ≤ stop) :
    splitFrom fallbacks (front ++ c :: rest) stop s (byteSize front) =
      let s := { s with
        first := if (Chunk.char c).isFiller then s.first else
          s.first.or (some (byteSize front)) }
      if isOpening c then
        splitFrom fallbacks (front ++ c :: rest) stop { s with depth := s.depth + 1 }
          (byteSize (front ++ [c]))
      else if isClosing c then do
        fallbacks.check .unopened (0 < s.depth)
        splitFrom fallbacks (front ++ c :: rest) stop { s with depth := s.depth - 1 }
          (byteSize (front ++ [c]))
      else if c = ',' ∧ s.depth = 0 then do
        let piece ← slice (front ++ c :: rest) s.start (byteSize front)
        let s ← { s with current := s.current ++ piece }.flush (front ++ c :: rest)
        splitFrom fallbacks (front ++ c :: rest) stop
          { s with start := byteSize (front ++ [c]) } (byteSize (front ++ [c]))
      else splitFrom fallbacks (front ++ c :: rest) stop s (byteSize (front ++ [c])) := by
  have hi : byteSize front < stop := by
    have := c.utf8Size_pos
    rw [byteSize_append, byteSize_cons] at hstop
    omega
  rcases Nat.lt_or_ge c.toNat 128 with hlt | hle
  · have hitem := itemAt_eq hlt front rest
    rw [h] at hitem
    rw [splitFrom_byte hi hitem, byteSize_concat_of_lt hlt]
    rfl
  · have hcomma : c ≠ ',' := ne_of_le hle (by decide)
    have hlength : byteSize front < (utf8 (front ++ c :: rest)).length := by
      have := c.utf8Size_pos
      rw [length_utf8, byteSize_append, byteSize_cons]
      omega
    have hfirst := List.getElem?_eq_getElem hlength
    have hbyte := le_of_getElem?_utf8 hle c.utf8Size_pos hfirst
    simp only [isFiller_of_le hle, isOpening_of_le hle, isClosing_of_le hle, hcomma, false_and,
      Bool.false_eq_true, if_false]
    rw [splitFrom_of_le hi hfirst hbyte]
    -- the entry has started, so the other bytes change nothing
    refine pass_char front rest hle (fun j b hj _ hb hle => ?_) c.utf8Size_pos
    rw [splitFrom_of_le (by omega) hb hle]
    cases s.first <;> rfl

end

/-! ### From chunk to chunk -/

section

variable {fallbacks : Fallbacks} {front more : List Char} {done : List Chunk} {s : SplitState}
  {stop j : Nat} {c : Char} {k : Chunk}

/-- **What a scanner keeps stays true from chunk to chunk**, and it falls back on nothing: every
chunk ends, and no bracket closes that was not opened. -/
theorem SplitState.Holds.exists_step (hs : s.Holds front done) (hk : (chunk c more).1 = k)
    (hended : k.isEnded = true) (hj : k.depthBehind? s.depth = some j)
    (hcomma : ¬ (k = .char ',' ∧ s.depth = 0))
    (hstop : byteSize (front ++ done.flatMap Chunk.text ++ k.text) ≤ stop) :
    ∃ s' : SplitState, s'.Holds front (done ++ [k]) ∧ s'.depth = j ∧ s'.entries = s.entries ∧
      splitFrom fallbacks (front ++ done.flatMap Chunk.text ++ c :: more) stop s
          (byteSize (front ++ done.flatMap Chunk.text)) =
        splitFrom fallbacks (front ++ done.flatMap Chunk.text ++ c :: more) stop s'
          (byteSize (front ++ done.flatMap Chunk.text ++ k.text)) := by
  have hne : k.text ≠ [] := hk ▸ chunk_text_ne_nil c more
  have hlast := last_succ hne (front ++ done.flatMap Chunk.text)
  have hstart : byteSize (front ++ done.flatMap Chunk.text) < stop := by
    have := byteSize_pos_of_ne_nil hne
    rw [byteSize_append _ k.text] at hstop
    omega
  cases k with
  | char d =>
    obtain rfl := chunk_char_eq hk
    refine ⟨{ s with
      first := if (Chunk.char d).isFiller then s.first else
        s.first.or (some (byteSize (front ++ done.flatMap Chunk.text)))
      depth := j }, hs.push rfl rfl rfl rfl, rfl, rfl, ?_⟩
    rw [splitFrom_char hk hstop]
    rcases Chunk.depthBehind?_cases hj with ⟨hopen, rfl⟩ | ⟨hopen, hclose, hj⟩ |
      ⟨hopen, hclose, rfl⟩
    · rw [if_pos hopen]
      rfl
    · have hpositive : decide (0 < s.depth) = true := decide_eq_true (by omega)
      have hdepth : s.depth - 1 = j := by omega
      rw [if_neg (by simp [hopen]), if_pos hclose]
      simp only [hpositive, check_true, hdepth]
      rfl
    · rw [if_neg (by simp [hopen]), if_neg (by simp [hclose]),
        if_neg fun h => hcomma ⟨congrArg _ h.1, h.2⟩]
      rfl
  | literal t =>
    cases hj
    have hitem := itemAt_of_chunk hk (by simp) (front ++ done.flatMap Chunk.text)
    refine ⟨{ s with first := s.first.or (some (byteSize (front ++ done.flatMap Chunk.text))) },
      hs.push rfl rfl rfl rfl, rfl, rfl, ?_⟩
    rw [splitFrom_literal hstart (hlast.le.trans hstop) hitem]
    exact congrArg _ hlast
  | comment t =>
    cases hj
    have hitem := itemAt_of_chunk hk (by simp) (front ++ done.flatMap Chunk.text)
    obtain ⟨piece, hslice, hcurrent⟩ := hs.exists_slice
      (show _ = front ++ done.flatMap Chunk.text ++ c :: more from rfl)
    refine ⟨{ s with
      current := done.flatMap Chunk.bareText ++ [' ']
      start := byteSize (front ++ done.flatMap Chunk.text ++ t) },
      hs.push_comment t rfl rfl rfl, rfl, rfl, ?_⟩
    rw [splitFrom_comment hstart (hlast.le.trans hstop) hitem, hslice, Except.bind,
      ← List.append_assoc s.current, hcurrent]
    exact congrArg₂ (fun start => splitFrom fallbacks _ stop { s with
      current := done.flatMap Chunk.bareText ++ [' ']
      start := start }) hlast hlast
  | openLiteral t => cases hended
  | openComment t => cases hended

/-- At a comma outside all brackets, a scanner ends an entry and starts another. -/
theorem SplitState.Holds.exists_comma_step (hs : s.Holds front done) (hdepth : s.depth = 0)
    (hstop : byteSize (front ++ done.flatMap Chunk.text ++ [',']) ≤ stop) :
    ∃ s' : SplitState, s'.Holds (front ++ done.flatMap Chunk.text ++ [',']) [] ∧ s'.depth = 0 ∧
      s'.entries = s.entries ++ (entryAt (placeBehind front) done).toList ∧
      splitFrom fallbacks (front ++ done.flatMap Chunk.text ++ ',' :: more) stop s
          (byteSize (front ++ done.flatMap Chunk.text)) =
        splitFrom fallbacks (front ++ done.flatMap Chunk.text ++ ',' :: more) stop s'
          (byteSize (front ++ done.flatMap Chunk.text ++ [','])) := by
  have hchar : (chunk ',' more).1 = .char ',' := by
    rw [chunk_eq_char (by decide) (.inl (by decide))]
  have hfiller : (Chunk.char ',').isFiller = true := rfl
  obtain ⟨piece, hslice, hflush⟩ := hs.exists_flush
    (show _ = front ++ done.flatMap Chunk.text ++ ',' :: more from rfl)
  refine ⟨{ s with
    current := []
    first := none
    start := byteSize (front ++ done.flatMap Chunk.text ++ [','])
    entries := s.entries ++ (entryAt (placeBehind front) done).toList },
    SplitState.holds_nil rfl rfl rfl, hdepth, rfl, ?_⟩
  rw [splitFrom_char hchar hstop]
  dsimp only
  rw [if_neg (by decide), if_neg (by decide), if_pos ⟨rfl, hdepth⟩]
  simp only [hfiller, if_true, bind, Except.bind, hslice, hflush]

/-- At the end of the object, a scanner ends its last entry. -/
theorem SplitState.Holds.splitFrom_stop (hs : s.Holds front done) :
    splitFrom fallbacks (front ++ done.flatMap Chunk.text ++ more)
        (byteSize (front ++ done.flatMap Chunk.text)) s
        (byteSize (front ++ done.flatMap Chunk.text)) =
      .ok (s.entries ++ (entryAt (placeBehind front) done).toList) := by
  obtain ⟨piece, hslice, hflush⟩ :=
    hs.exists_flush (show _ = front ++ done.flatMap Chunk.text ++ more from rfl)
  rw [splitFrom, if_neg (Nat.lt_irrefl _), Nat.max_eq_left hs.start_le, hslice]
  simp only [bind, Except.bind, hflush]
  rfl

end

/-! ### The entries of an object -/

/-- **A scanner splits an object into its entries**, with nothing to fall back on. -/
theorem splitFrom_eq (fallbacks : Fallbacks) {front todo post : List Char} {done : List Chunk}
    {s : SplitState} (hpost : BreaksSlash post) (hended : AreEnded (chunks todo))
    (hdepth : depthThrough s.depth (chunks todo) = some 0) (hs : s.Holds front done) :
    splitFrom fallbacks (front ++ done.flatMap Chunk.text ++ (todo ++ post))
        (byteSize (front ++ done.flatMap Chunk.text ++ todo)) s
        (byteSize (front ++ done.flatMap Chunk.text)) =
      .ok (s.entries ++ groupEntries (placeBehind front)
        (done.foldr consFirst (splitCommas s.depth (chunks todo)))) := by
  fun_induction chunks todo generalizing front done s with
  | case1 =>
    rw [List.append_nil, hs.splitFrom_stop, splitCommas, foldr_consFirst, List.append_nil]
    simp [groupEntries]
  | case2 c rest ih =>
    obtain ⟨hk, hrestEnded⟩ := List.forall_mem_cons.1 hended
    obtain ⟨j, hj, hrestDepth⟩ := Option.bind_eq_some_iff.1 hdepth
    have hchunk : chunk c (rest ++ post) = ((chunk c rest).1, (chunk c rest).2 ++ post) :=
      chunk_append hk hpost
    have htext := chunk_text_append_rest c rest
    have hstop : byteSize (front ++ done.flatMap Chunk.text ++ (chunk c rest).1.text) ≤
        byteSize (front ++ done.flatMap Chunk.text ++ c :: rest) := by
      rw [← htext, ← List.append_assoc, byteSize_append _ (chunk c rest).2]
      exact Nat.le_add_right _ _
    by_cases hcomma : (chunk c rest).1 = .char ',' ∧ s.depth = 0
    · obtain ⟨hkind, hzero⟩ := hcomma
      obtain rfl := chunk_char_eq hkind
      rw [hkind] at hstop htext hj
      cases hj
      obtain ⟨s', hs', hzero', hentries, hstep⟩ := hs.exists_comma_step hzero hstop
      have hfound := ih hrestEnded (by rw [hzero']; rwa [hzero] at hrestDepth) hs'
      have hplace : ((placeBehind front).after (done.flatMap Chunk.text)).next ',' =
          placeBehind (front ++ done.flatMap Chunk.text ++ [',']) := by
        rw [placeBehind_after, ← placeBehind_after _ [',']]
        rfl
      rw [List.cons_append, hstep, hkind, splitCommas, if_pos ⟨rfl, hzero⟩, foldr_consFirst,
        List.append_nil, groupEntries, hplace]
      rw [hzero', hentries] at hfound
      have hbehind : (chunk ',' rest).2 = rest := (List.cons.inj htext).2
      rw [hbehind] at hfound ⊢
      simpa using hfound
    · obtain ⟨s', hs', rfl, hentries, hstep⟩ := hs.exists_step (by rw [hchunk]) hk hj hcomma hstop
      have hfound := ih hrestEnded hrestDepth hs'
      have hafter := Chunk.depthAfter_of_depthBehind? hj 0
      have hall : (chunk c rest).1.text ++ ((chunk c rest).2 ++ post) = c :: (rest ++ post) := by
        rw [← List.append_assoc, htext, List.cons_append]
      rw [Nat.add_zero, Nat.add_zero] at hafter
      rw [List.cons_append, hstep, splitCommas, if_neg hcomma, hafter, ← hentries]
      rw [List.foldr_append, List.flatMap_append, List.flatMap_singleton] at hfound
      simpa [htext, hall] using hfound

/-- **The entries between two offsets are those of the text between them**, if it is closed and no
comment starts behind it. -/
theorem splitEntries_eq (fallbacks : Fallbacks) (front : List Char) {inside back : List Char}
    (hback : BreaksSlash back) (h : IsClosed inside) :
    splitEntries fallbacks (front ++ (inside ++ back)) (byteSize front)
        (byteSize (front ++ inside)) =
      .ok (entries (placeBehind front) (chunks inside)) := by
  have hs : SplitState.Holds ⟨[], none, 0, byteSize front, []⟩ front [] :=
    SplitState.holds_nil rfl rfl rfl
  have hfound := splitFrom_eq fallbacks hback h.ended h.balanced hs
  simpa [splitEntries, entries] using hfound

end SchemaForge.Declaration
