import SchemaForge.Proofs.Declaration.Body
import SchemaForge.Proofs.Declaration.Order
import SchemaForge.Proofs.Declaration.Squeezed
import SchemaForge.Proofs.Text.LineEnds

/-!
# Entries and the ends of lines

With a carriage return in front of every line feed, a text is cut into the same chunks: literals
and comments have the carriage returns inside, and one that stands outside is a chunk by itself.
No bracket, comma or mark is lost, so every entry is the one that it was and stands where it stood.

## Main definitions

* `Chunk.withReturns` — the chunks in place of a chunk.
* `Entry.withReturns` — an entry with carriage returns.

## Main results

* `chunks_withReturns` — **the chunks of the text.**
* `splitClosing_flatMap_withReturns`, `splitCommas_flatMap_withReturns` — the two searches.
* `entries_flatMap_withReturns` — the entries of an object.
* `columnOf?_withReturns` — **an entry spells the same column.**
-/

namespace SchemaForge.Declaration

open Text

/-! ### Chunks -/

/-- The chunks in place of a chunk. -/
def Chunk.withReturns : Chunk → List Chunk
  | char c => (returned c).map .char
  | literal t => [.literal (Text.withReturns t)]
  | comment t => [.comment (Text.withReturns t)]
  | openLiteral t => [.openLiteral (Text.withReturns t)]
  | openComment t => [.openComment (Text.withReturns t)]

section

variable {c q : Char} {rest text : List Char}

theorem Chunk.withReturns_newline : (Chunk.char '\n').withReturns = [.char '\r', .char '\n'] := rfl

theorem Chunk.withReturns_char (h : c ≠ '\n') : (Chunk.char c).withReturns = [.char c] := by
  show (returned c).map Chunk.char = _
  rw [returned, if_neg h]
  rfl

theorem Chunk.flatMap_text_withReturns (k : Chunk) :
    k.withReturns.flatMap Chunk.text = Text.withReturns k.text := by
  cases k with
  | char c =>
    by_cases hc : c = '\n'
    · subst hc
      rfl
    · rw [withReturns_char hc]
      exact (withReturns_cons hc []).symm
  | _ => exact List.append_nil _

theorem flatMap_text_flatMap_withReturns (cs : List Chunk) :
    (cs.flatMap Chunk.withReturns).flatMap Chunk.text = withReturns (cs.flatMap Chunk.text) := by
  induction cs with
  | nil => rfl
  | cons k cs ih =>
    rw [List.flatMap_cons, List.flatMap_append, Chunk.flatMap_text_withReturns, ih,
      List.flatMap_cons, withReturns_append]

/-- **A literal ends where it ended.**  A backslash may take the carriage return and leave the
line feed, which closes nothing. -/
theorem splitLiteral_withReturns (hq : isQuote q = true) (text : List Char) :
    splitLiteral q (withReturns text) =
      (splitLiteral q text).map fun split => (withReturns split.1, withReturns split.2) := by
  have hnewline : '\n' ≠ q := by
    rintro rfl
    cases hq
  have hreturn : '\r' ≠ q := by
    rintro rfl
    cases hq
  fun_induction splitLiteral q text with
  | case1 => rfl
  | case2 c rest ih =>
    rw [withReturns_cons (by decide)]
    by_cases hc : c = '\n'
    · subst hc
      rw [withReturns_newline, splitLiteral, splitLiteral_cons hnewline (by decide), ih]
      cases splitLiteral q rest <;> rfl
    · rw [withReturns_cons hc, splitLiteral, ih]
      cases splitLiteral q rest with
      | none => rfl
      | some split =>
        show some ('\\' :: c :: withReturns split.1, _) =
          some (withReturns ('\\' :: c :: split.1), _)
        rw [withReturns_cons (by decide), withReturns_cons hc]
  | case3 rest hne =>
    have hcons : ∀ text, withReturns (q :: text) = q :: withReturns text :=
      withReturns_cons (fun h => hnewline h.symm)
    show _ = some (withReturns [q], withReturns rest)
    rw [hcons, splitLiteral_quote (ne_backslash_of_isQuote hq), hcons, withReturns_nil]
  | case4 c rest hne hc ih =>
    by_cases hline : c = '\n'
    · subst hline
      rw [withReturns_newline, splitLiteral_cons hreturn (by decide),
        splitLiteral_cons hnewline (by decide), ih]
      cases splitLiteral q rest <;> rfl
    · by_cases hescape : c = '\\'
      · -- a backslash that escapes nothing is the last character
        cases rest with
        | nil =>
          rw [withReturns_cons hline, withReturns_nil, hescape]
          simp [splitLiteral, hescape ▸ hc]
        | cons d rest => exact absurd rfl (hne d rest hescape)
      · rw [withReturns_cons hline, splitLiteral_cons hc hescape, ih]
        cases splitLiteral q rest with
        | none => rfl
        | some split =>
          exact congrArg (fun inside => some (inside, _)) (withReturns_cons hline _).symm

theorem splitLine_withReturns (text : List Char) :
    splitLine (withReturns text) =
      (withReturns (splitLine text).1, withReturns (splitLine text).2) := by
  fun_induction splitLine text with
  | case1 => rfl
  | case2 rest => rfl
  | case3 c rest hc line behind hsplit ih =>
    rw [withReturns_cons hc, splitLine, ih, hsplit, withReturns_cons hc]
    exact hc

theorem splitBlockComment_withReturns (text : List Char) :
    splitBlockComment (withReturns text) =
      (splitBlockComment text).map fun split => (withReturns split.1, withReturns split.2) := by
  have hstep : ∀ d rest, d ≠ '*' → splitBlockComment (d :: rest) =
      (splitBlockComment rest).map fun split => (d :: split.1, split.2) := by
    intro d rest hd
    rw [splitBlockComment]
    exact fun _ h => absurd h hd
  fun_induction splitBlockComment text with
  | case1 => rfl
  | case2 rest =>
    rw [withReturns_cons (by decide), withReturns_cons (by decide)]
    rfl
  | case3 c rest hne ih =>
    by_cases hc : c = '\n'
    · subst hc
      rw [withReturns_newline, hstep '\r' _ (by decide), hstep '\n' _ (by decide), ih]
      cases splitBlockComment rest <;> rfl
    · rw [withReturns_cons hc, splitBlockComment, ih]
      · cases splitBlockComment rest with
        | none => rfl
        | some split => exact congrArg (fun inside => some (inside, _)) (withReturns_cons hc _).symm
      · -- what follows a star is no slash still
        intro behind hstar hslash
        have hhead := (respacing_withReturns.head?_eq_some_iff (by decide) rest).1
          (List.head?_eq_some_iff.2 ⟨behind, hslash⟩)
        obtain ⟨behind', hbehind⟩ := List.head?_eq_some_iff.1 hhead
        exact hne behind' hstar hbehind

/-- A character other than a line feed starts the chunk that it started. -/
theorem chunk_withReturns (hc : c ≠ '\n') (rest : List Char) :
    ∃ k, (chunk c rest).1.withReturns = [k] ∧
      chunk c (withReturns rest) = (k, withReturns (chunk c rest).2) := by
  have hcons : ∀ text, withReturns (c :: text) = c :: withReturns text := withReturns_cons hc
  cases hcomment : (chunk c rest).1.isComment with
  | false =>
    rcases chunk_cases_of_not_isComment hcomment with
      ⟨hquote, hsplit, hchunk⟩ | ⟨inside, after, hquote, hsplit, hchunk⟩ | ⟨hquote, hslash, hchunk⟩
    · have hsplit' : splitLiteral c (withReturns rest) = none := by
        rw [splitLiteral_withReturns hquote, hsplit]
        rfl
      rw [hchunk, chunk_open_quote hquote hsplit', ← hcons]
      exact ⟨_, rfl, rfl⟩
    · have hsplit' : splitLiteral c (withReturns rest) =
          some (withReturns inside, withReturns after) := by
        rw [splitLiteral_withReturns hquote, hsplit]
        rfl
      rw [hchunk, chunk_quote hquote hsplit', ← hcons]
      exact ⟨_, rfl, rfl⟩
    · rw [hchunk, chunk_eq_char hquote (hslash.imp_right (·.respaced respacing_withReturns))]
      exact ⟨_, Chunk.withReturns_char hc, rfl⟩
  | true =>
    have hslash : ∀ text, withReturns ('/' :: text) = '/' :: withReturns text :=
      withReturns_cons (by decide)
    have hstar : ∀ text, withReturns ('*' :: text) = '*' :: withReturns text :=
      withReturns_cons (by decide)
    obtain ⟨rfl, line, rfl | rfl⟩ := exists_mark_of_isComment hcomment
    · rw [hslash, chunk_line, chunk_line, splitLine_withReturns, ← hslash, ← hslash]
      exact ⟨_, rfl, rfl⟩
    · rw [hstar]
      cases hblock : splitBlockComment line with
      | none =>
        have hblock' : splitBlockComment (withReturns line) = none := by
          rw [splitBlockComment_withReturns, hblock]
          rfl
        rw [chunk_open_block hblock, chunk_open_block hblock', ← hstar, ← hslash]
        exact ⟨_, rfl, rfl⟩
      | some split =>
        have hblock' : splitBlockComment (withReturns line) =
            some (withReturns split.1, withReturns split.2) := by
          rw [splitBlockComment_withReturns, hblock]
          rfl
        rw [chunk_block hblock, chunk_block hblock', ← hstar, ← hslash]
        exact ⟨_, rfl, rfl⟩

/-- **A text with carriage returns has the same chunks**, with carriage returns. -/
theorem chunks_withReturns (text : List Char) :
    chunks (withReturns text) = (chunks text).flatMap Chunk.withReturns := by
  have hblank : ∀ d, isBlank d = true → ∀ rest, chunks (d :: rest) = .char d :: chunks rest := by
    intro d hd rest
    rw [chunks_cons, chunk_of_isBlank hd]
  fun_induction chunks text with
  | case1 => simp
  | case2 c rest ih =>
    by_cases hc : c = '\n'
    · subst hc
      rw [chunk_of_isBlank (by decide)] at ih ⊢
      rw [withReturns_newline, hblank '\r' (by decide), hblank '\n' (by decide), ih]
      rfl
    · obtain ⟨k, hk, hchunk⟩ := chunk_withReturns hc rest
      rw [withReturns_cons hc, chunks_cons, hchunk, ih, List.flatMap_cons, hk]
      rfl

/-! ### The two searches -/

/-- **A bracket closes where it closed.** -/
theorem splitClosing_flatMap_withReturns (depth : Nat) (cs : List Chunk) :
    splitClosing depth (cs.flatMap Chunk.withReturns) =
      (splitClosing depth cs).map fun (inside, rest) =>
        (inside.flatMap Chunk.withReturns, rest.flatMap Chunk.withReturns) := by
  induction cs generalizing depth with
  | nil => rfl
  | cons k cs ih =>
    rw [List.flatMap_cons]
    cases k with
    | char c =>
      by_cases hc : c = '\n'
      · subst hc
        show ((splitClosing depth (cs.flatMap Chunk.withReturns)).map _).map _ =
          ((splitClosing depth cs).map _).map _
        rw [ih, Option.map_map, Option.map_map, Option.map_map]
        rfl
      · have hchar := Chunk.withReturns_char hc
        have hstep : ∀ depth, (splitClosing depth (cs.flatMap Chunk.withReturns)).map
              (fun split => (Chunk.char c :: split.1, split.2)) =
            ((splitClosing depth cs).map fun split => (Chunk.char c :: split.1, split.2)).map
              fun split =>
                (split.1.flatMap Chunk.withReturns, split.2.flatMap Chunk.withReturns) := by
          intro depth
          rw [ih]
          cases splitClosing depth cs with
          | none => rfl
          | some split => simp [hchar]
        rw [hchar, List.singleton_append, splitClosing.eq_def, splitClosing.eq_def]
        dsimp only
        split
        · exact hstep (depth + 1)
        · split
          · cases depth with
            | zero => rfl
            | succ depth => exact hstep depth
          · exact hstep depth
    | literal t =>
      show (splitClosing depth (cs.flatMap Chunk.withReturns)).map _ = _
      rw [ih, splitClosing, Option.map_map, Option.map_map]
      rfl
    | comment t =>
      show (splitClosing depth (cs.flatMap Chunk.withReturns)).map _ = _
      rw [ih, splitClosing, Option.map_map, Option.map_map]
      rfl
    | openLiteral t => rfl
    | openComment t => rfl

/-- **A comma separates where it separated.** -/
theorem splitCommas_flatMap_withReturns (depth : Nat) (cs : List Chunk) :
    splitCommas depth (cs.flatMap Chunk.withReturns) =
      (splitCommas depth cs).map (·.flatMap Chunk.withReturns) := by
  induction cs generalizing depth with
  | nil => rfl
  | cons k cs ih =>
    rw [List.flatMap_cons, splitCommas]
    by_cases hcomma : k = .char ',' ∧ depth = 0
    · obtain ⟨rfl, rfl⟩ := hcomma
      rw [if_pos ⟨rfl, rfl⟩, Chunk.withReturns_char (by decide), List.singleton_append,
        splitCommas, if_pos ⟨rfl, rfl⟩, ih]
      rfl
    · rw [if_neg hcomma, map_flatMap_consFirst _ _ (splitCommas_ne_nil _ _), ← ih]
      have hone : ∀ k', (k' = .char ',' ∧ depth = 0 → k = .char ',' ∧ depth = 0) →
          k'.depthAfter depth = k.depthAfter depth →
          splitCommas depth ([k'] ++ cs.flatMap Chunk.withReturns) =
            consFirst k' (splitCommas (k.depthAfter depth) (cs.flatMap Chunk.withReturns)) := by
        intro k' hk' hdepth
        rw [List.singleton_append, splitCommas, if_neg (mt hk' hcomma), hdepth]
      cases k with
      | char c =>
        by_cases hc : c = '\n'
        · subst hc
          rw [Chunk.withReturns_newline]
          show splitCommas depth
            (.char '\r' :: .char '\n' :: cs.flatMap Chunk.withReturns) = _
          rw [splitCommas, if_neg (by simp), splitCommas, if_neg (by simp [Chunk.depthAfter])]
          rfl
        · rw [Chunk.withReturns_char hc]
          exact hone _ id rfl
      | literal t => exact hone _ (fun h => by cases h.1) rfl
      | comment t => exact hone _ (fun h => by cases h.1) rfl
      | openLiteral t => exact hone _ (fun h => by cases h.1) rfl
      | openComment t => exact hone _ (fun h => by cases h.1) rfl

/-! ### Entries -/

/-- **An entry starts where it started.** -/
theorem firstPosition?_flatMap_withReturns (p : Position) (group : List Chunk) :
    firstPosition? p (group.flatMap Chunk.withReturns) = firstPosition? p group := by
  induction group generalizing p with
  | nil => rfl
  | cons k group ih =>
    rw [List.flatMap_cons]
    cases k with
    | char c =>
      by_cases hc : c = '\n'
      · subst hc
        exact ih (p.next '\n')
      · rw [Chunk.withReturns_char hc, List.singleton_append, firstPosition?, firstPosition?, ih]
    | literal t => rfl
    | comment t =>
      show firstPosition? (p.after (withReturns t)) (group.flatMap Chunk.withReturns) = _
      rw [after_withReturns, ih]
      rfl
    | openLiteral t => rfl
    | openComment t =>
      show firstPosition? (p.after (withReturns t)) (group.flatMap Chunk.withReturns) = _
      rw [after_withReturns, ih]
      rfl

theorem flatMap_bareText_flatMap_withReturns (group : List Chunk) :
    (group.flatMap Chunk.withReturns).flatMap Chunk.bareText =
      withReturns (group.flatMap Chunk.bareText) := by
  induction group with
  | nil => rfl
  | cons k group ih =>
    have hk : k.withReturns.flatMap Chunk.bareText = withReturns k.bareText := by
      cases k with
      | char c =>
        have hbare : ∀ d : List Char, (d.map Chunk.char).flatMap Chunk.bareText = d := by
          intro d
          rw [List.flatMap_map]
          exact List.flatMap_singleton' d
        exact (hbare (returned c)).trans (List.append_nil _).symm
      | _ => exact List.append_nil _
    rw [List.flatMap_cons, List.flatMap_append, hk, ih, List.flatMap_cons, withReturns_append]

/-- An entry with carriage returns. -/
def Entry.withReturns (e : Entry) : Entry :=
  { e with text := Text.withReturns e.text }

theorem entryAt_flatMap_withReturns (p : Position) (group : List Chunk) :
    entryAt p (group.flatMap Chunk.withReturns) = (entryAt p group).map Entry.withReturns := by
  unfold entryAt
  rw [flatMap_bareText_flatMap_withReturns, trim_withReturns, firstPosition?_flatMap_withReturns]
  cases htext : trim (group.flatMap Chunk.bareText) with
  | nil => rfl
  | cons c text =>
    have hne : withReturns (c :: text) ≠ [] := mt withReturns_eq_nil_iff.1 (List.cons_ne_nil c text)
    obtain ⟨d, more, hmore⟩ := List.exists_cons_of_ne_nil hne
    rw [hmore]
    cases firstPosition? p group with
    | none => rfl
    | some position =>
      show some (Entry.mk (d :: more) position) = some ⟨withReturns (c :: text), position⟩
      rw [hmore]

theorem groupEntries_withReturns (p : Position) (groups : List (List Chunk)) :
    groupEntries p (groups.map (·.flatMap Chunk.withReturns)) =
      (groupEntries p groups).map Entry.withReturns := by
  induction groups generalizing p with
  | nil => rfl
  | cons group groups ih =>
    rw [List.map_cons, groupEntries, entryAt_flatMap_withReturns,
      flatMap_text_flatMap_withReturns, after_withReturns, ih, groupEntries, List.map_append,
      Option.toList_map]

/-- **The entries stand where they stood.** -/
theorem entries_flatMap_withReturns (p : Position) (inside : List Chunk) :
    entries p (inside.flatMap Chunk.withReturns) = (entries p inside).map Entry.withReturns := by
  unfold entries
  rw [splitCommas_flatMap_withReturns, groupEntries_withReturns]

/-! ### Columns -/

theorem behindClosing?_withReturns (depth : Nat) (text : List Char) :
    behindClosing? depth (withReturns text) = (behindClosing? depth text).map withReturns := by
  unfold behindClosing?
  rw [chunks_withReturns, splitClosing_flatMap_withReturns, Option.map_map, Option.map_map]
  congr 1
  funext split
  exact flatMap_text_flatMap_withReturns split.2

/-- **An entry spells the same column.** -/
theorem columnOf?_withReturns (param entry : List Char) :
    columnOf? param (withReturns entry) = columnOf? param entry := by
  rw [columnOf?_eq, columnOf?_eq, columnHead?_respaced respacing_withReturns]
  cases columnHead? entry with
  | none => rfl
  | some head =>
    simp only [Option.map_some, Option.bind_some, behindClosing?_withReturns, Option.map_map,
      Function.comp_def, columnWith_respaced respacing_withReturns]

end

end SchemaForge.Declaration
