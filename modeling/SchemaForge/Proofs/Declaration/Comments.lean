import SchemaForge.Proofs.Declaration.Blanks
import SchemaForge.Proofs.Declaration.Lookahead

/-!
# Comments in declarations

The inside of a column object is read without its comments, but headers are searched for in the
text as it stands.  So a table that is commented out is declared all the same, and a comment
inside a header hides it.  That is all that comments decide: where they keep out of the headers,
a text means what it means with blanks in place of its comments.

One thing more is asked of the columns.  The quotes around the name of a column need not match,
and behind a name that opens a quote and does not close it a literal may read as a comment.

## Main definitions

* `Match.StandsOutside` — a header with no character in a comment.
* `CommentsApart` — no comment has a part in a header, or behind the head of an entry.
* `blankComments` — a source text with blanks in place of its comments.

## Main results

* `CommentsApart.headerMatches_withBlanks` — the headers are found where they were.
* `ofSource_blankComments` — **comments that stand apart decide nothing**: not the tables, not
  what is left out, and not where a strict reader stops.
* `ofSource_commentedSource` — a table that is commented out is declared.
-/

namespace SchemaForge.Declaration

open Text

/-! ### Readings -/

/-- A header as it stands in front of an object with blanks in place of its comments. -/
def Match.withBlanks (m : Match) : Match :=
  { m with header := { m.header with rest := Declaration.withBlanks m.header.rest } }

/-- Behind the head of no entry of the object stands a comment. -/
def Match.HeadsClear (m : Match) : Prop :=
  ∀ split ∈ splitClosing 0 (chunks m.header.rest),
    ∀ e ∈ entries m.bodyPosition split.1, HeadClear e.text

instance (m : Match) : Decidable m.HeadsClear :=
  inferInstanceAs (Decidable (∀ split ∈ splitClosing 0 (chunks m.header.rest),
    ∀ e ∈ entries m.bodyPosition split.1, HeadClear e.text))

section

variable {es es' : List Entry} {m : Match}

@[simp] theorem Match.withBlanks_start (m : Match) : m.withBlanks.start = m.start := rfl

@[simp] theorem Match.withBlanks_bodyStart (m : Match) :
    m.withBlanks.bodyStart = m.bodyStart := rfl

@[simp] theorem Match.withBlanks_unclosed (m : Match) : m.withBlanks.unclosed = m.unclosed := rfl

theorem filterMap_columnOf?_squeezed (h : ∀ e ∈ es, HeadClear e.text) (param : List Char) :
    ((es.map Entry.squeezed).map Entry.text).filterMap (columnOf? param) =
      (es.map Entry.text).filterMap (columnOf? param) := by
  rw [List.map_map, List.filterMap_map, List.filterMap_map]
  exact List.filterMap_congr fun e he => columnOf?_squeeze (h e he) param

theorem Match.unreadEntries_squeezed (h : ∀ e ∈ es, HeadClear e.text) :
    m.unreadEntries (es.map Entry.squeezed) = m.unreadEntries es := by
  rw [unreadEntries, List.filterMap_map, unreadEntries]
  refine List.filterMap_congr fun e he => ?_
  have hcolumn := columnOf?_squeeze (h e he) m.header.param
  have hunread : m.unrecognised e.squeezed = m.unrecognised e := by
    simp only [unrecognised, Entry.squeezed, collapse_squeeze]
  simp only [Function.comp_apply, hunread]
  rw [Entry.squeezed, hcolumn]

/-- Entries with the same normal forms are clear alike. -/
theorem headClear_of_map_squeezed_eq (heq : es'.map Entry.squeezed = es.map Entry.squeezed)
    (h : ∀ e ∈ es, HeadClear e.text) : ∀ e ∈ es', HeadClear e.text := by
  intro e' he'
  have hmem : e'.squeezed ∈ es.map Entry.squeezed := heq ▸ List.mem_map_of_mem he'
  obtain ⟨e, he, hsqueezed⟩ := List.mem_map.1 hmem
  have htext : squeeze e.text = squeeze e'.text := congrArg Entry.text hsqueezed
  rw [← headClear_squeeze, ← htext, headClear_squeeze]
  exact h e he

/-- **A header has the reading that it has without comments.** -/
theorem Match.readingOf_withBlanks {inside : List Chunk} (htext : ∀ k ∈ inside, k.text ≠ [])
    (h : ∀ e ∈ entries m.bodyPosition inside, HeadClear e.text) :
    m.withBlanks.readingOf (inside.flatMap Chunk.blanks) = m.readingOf inside := by
  have heq := squeezed_entries_flatMap_blanks htext m.bodyPosition
  have h' := headClear_of_map_squeezed_eq heq h
  have hcolumns := filterMap_columnOf?_squeezed h' m.header.param
  have hunread := m.unreadEntries_squeezed h'
  rw [heq, filterMap_columnOf?_squeezed h] at hcolumns
  rw [heq, unreadEntries_squeezed h] at hunread
  have hreading : m.withBlanks.readingOf (inside.flatMap Chunk.blanks) =
      ⟨some (m.tableOf (((entries m.bodyPosition (inside.flatMap Chunk.blanks)).map
          Entry.text).filterMap (columnOf? m.header.param))),
        m.unreadEntries (entries m.bodyPosition (inside.flatMap Chunk.blanks))⟩ := rfl
  rw [hreading, ← hcolumns, ← hunread]
  rfl

end

/-- The readings of headers do not depend on the comments behind them. -/
theorem readingsFrom_withBlanks {ms : List Match} (h : ∀ m ∈ ms, m.HeadsClear) (resume : Nat) :
    readingsFrom resume (ms.map Match.withBlanks) = readingsFrom resume ms := by
  induction ms generalizing resume with
  | nil => rfl
  | cons m ms ih =>
    obtain ⟨hm, hms⟩ := List.forall_mem_cons.1 h
    have hclosing : splitClosing 0 (chunks m.withBlanks.header.rest) = _ :=
      (congrArg _ (chunks_withBlanks m.header.rest)).trans
        (splitClosing_flatMap_blanks 0 m.header.rest)
    rw [List.map_cons, readingsFrom, readingsFrom, hclosing, Match.withBlanks_start,
      Match.withBlanks_bodyStart, Match.withBlanks_unclosed]
    by_cases hstart : m.start < resume
    · rw [if_pos hstart, if_pos hstart]
      exact ih hms resume
    rw [if_neg hstart, if_neg hstart]
    cases hsplit : splitClosing 0 (chunks m.header.rest) with
    | none =>
      dsimp only [Option.map_none]
      rw [ih hms]
    | some split =>
      obtain ⟨inside, rest⟩ := split
      have htext : ∀ k ∈ inside, k.text ≠ [] := fun k hk =>
        text_ne_nil_of_mem_chunks ((isPrefix_of_splitClosing hsplit).subset hk)
      dsimp only [Option.map_some]
      rw [Match.readingOf_withBlanks htext (hm _ hsplit), length_flatMap_blanks, ih hms]

/-! ### Headers -/

/-- The header is made from whole chunks of the text, none of them a comment, and so is what
stands behind it. -/
def Match.StandsOutside (text : List Char) (m : Match) : Prop :=
  ∃ front own, chunks text = front ++ (own ++ chunks m.header.rest) ∧
    (front.flatMap Chunk.text).length = m.start ∧ ∀ k ∈ own, k.isComment = false

section

variable {whole text : List Char} {m m' : Match}

theorem flatMap_blanks_of_not_isComment {cs : List Chunk} (h : ∀ k ∈ cs, k.isComment = false) :
    cs.flatMap Chunk.blanks = cs := by
  induction cs with
  | nil => rfl
  | cons k cs ih =>
    obtain ⟨hk, hcs⟩ := List.forall_mem_cons.1 h
    rw [List.flatMap_cons, Chunk.blanks_of_not_isComment hk, ih hcs, List.singleton_append]

/-- **With blanks in place of the comments, a header outside of them is found where it was**, and
nothing else is found there. -/
theorem Match.StandsOutside.eq_withBlanks (h : m.StandsOutside text) (hm : m ∈ headerMatches text)
    (hm' : m' ∈ headerMatches (Declaration.withBlanks text)) (hstart : m'.start = m.start) :
    m' = m.withBlanks := by
  obtain ⟨front, own, hchunks, hfront, hown⟩ := h
  have hin := Match.isIn_of_mem_headerMatches m hm
  have hin' := Match.isIn_of_mem_headerMatches m' hm'
  -- the two texts, cut at the two ends of the header
  have htext : text = front.flatMap Chunk.text ++ (own.flatMap Chunk.text ++ m.header.rest) := by
    rw [← chunks_flatMap_text text, hchunks, List.flatMap_append, List.flatMap_append,
      chunks_flatMap_text]
  have hblanks : Declaration.withBlanks text =
      (front.flatMap Chunk.blanks).flatMap Chunk.text ++
        (own.flatMap Chunk.text ++ Declaration.withBlanks m.header.rest) := by
    rw [Declaration.withBlanks, hchunks, List.flatMap_append, List.flatMap_append,
      List.flatMap_append, List.flatMap_append, flatMap_blanks_of_not_isComment hown]
    rfl
  have hdrop : text.drop m.start = own.flatMap Chunk.text ++ m.header.rest := by
    rw [htext, ← hfront, List.drop_left]
  have hlength : ((front.flatMap Chunk.blanks).flatMap Chunk.text).length = m.start :=
    (length_flatMap_blanks front).trans hfront
  have hdrop' : (Declaration.withBlanks text).drop m.start =
      own.flatMap Chunk.text ++ Declaration.withBlanks m.header.rest := by
    rw [hblanks, ← hlength, List.drop_left]
  have hownText : m.text = own.flatMap Chunk.text :=
    List.append_cancel_right (hin.text.symm.trans hdrop)
  -- what is read there, its text and its place
  have hheader : m'.header = m.withBlanks.header := by
    obtain ⟨front', hfront', hexchange⟩ := header?_exchange (header?_of_mem_headerMatches hm)
    have hsame : front' = own.flatMap Chunk.text :=
      List.append_cancel_right (hfront'.symm.trans hdrop)
    have hfound' := header?_of_mem_headerMatches hm'
    rw [hstart, hdrop', ← hsame, hexchange] at hfound'
    exact (Option.some.inj hfound').symm
  have hsameText : m'.text = m.text := by
    have hall := hin'.text
    rw [hstart, hdrop', hheader, ← hownText] at hall
    exact (List.append_cancel_right hall).symm
  have hposition : m'.position = m.position := by
    rw [hin'.position, hin.position, hstart, positionAt, positionAt, hblanks, ← hlength,
      List.take_left, after_flatMap_blanks, htext, length_flatMap_blanks, List.take_left]
  calc m' = ⟨m'.header, m'.text, m'.start, m'.position⟩ := rfl
    _ = m.withBlanks := by
      rw [hheader, hsameText, hstart, hposition]
      rfl

end

/-! ### Sources -/

/-- A source text with a blank for every character of a comment; its line breaks stay. -/
def blankComments (source : String) : String :=
  String.ofList (withBlanks source.toList)

/-- The comments of a text stand apart from its headers and from the heads of its columns. -/
structure CommentsApart (text : List Char) : Prop where
  /-- No character of a header stands in a comment. -/
  outside : ∀ m ∈ headerMatches text, m.StandsOutside text
  /-- With blanks in place of the comments, headers start where they did: no comment hides one. -/
  places : (headerMatches (withBlanks text)).map Match.start =
    (headerMatches text).map Match.start
  /-- Behind the heads of the columns stands nothing that is a comment there and was none
  before. -/
  heads : ∀ m ∈ headerMatches text, m.HeadsClear

/-- Rows with the same keys are rows of images, when a key decides the image. -/
theorem eq_map_of_map_eq_map {α : Type} {key : α → Nat} {image : α → α} {as bs : List α}
    (hkeys : bs.map key = as.map key)
    (himage : ∀ a ∈ as, ∀ b ∈ bs, key b = key a → b = image a) : bs = as.map image := by
  induction as generalizing bs with
  | nil => simpa using hkeys
  | cons a as ih =>
    cases bs with
    | nil => cases hkeys
    | cons b bs =>
      obtain ⟨hkey, hkeys⟩ := List.cons.inj hkeys
      have hfirst := himage a (List.mem_cons_self ..) b (List.mem_cons_self ..) hkey
      have hothers := ih hkeys fun a ha b hb =>
        himage a (List.mem_cons_of_mem _ ha) b (List.mem_cons_of_mem _ hb)
      rw [List.map_cons, ← hfirst, ← hothers]

/-- The headers are those of the text, each in front of an object without comments. -/
theorem CommentsApart.headerMatches_withBlanks {text : List Char} (h : CommentsApart text) :
    headerMatches (withBlanks text) = (headerMatches text).map Match.withBlanks :=
  eq_map_of_map_eq_map h.places fun m hm _ hm' hstart =>
    (h.outside m hm).eq_withBlanks hm hm' hstart

/-- **Comments that stand apart decide nothing**: the tables are the same without them, what is
left out is the same, and a strict reader stops at the same place for the same reason. -/
theorem ofSource_blankComments (mode : Mode) {source : String}
    (h : CommentsApart source.toList) :
    DeclaredTables.ofSource mode (blankComments source) = DeclaredTables.ofSource mode source := by
  have htext : DeclaredTables.ofText (withBlanks source.toList) =
      DeclaredTables.ofText source.toList := by
    rw [DeclaredTables.ofText, readings, h.headerMatches_withBlanks,
      readingsFrom_withBlanks h.heads, DeclaredTables.ofText, readings]
  rw [DeclaredTables.ofSource_eq, blankComments, String.toList_ofList, htext,
    DeclaredTables.ofSource_eq]

/-- A comment with a quote in front of a declaration, and one with a bracket in an argument, next
to a literal with the mark of a comment. -/
def annotatedSource : String :=
  "// it's\nexport const u = pgTable('u', t => (\x7b a: t.b(/*)*/'//') \x7d))"

theorem ofSource_blankComments_sample :
    CommentsApart annotatedSource.toList ∧
      DeclaredTables.ofSource .strict (blankComments annotatedSource) =
        DeclaredTables.ofSource .strict annotatedSource := by
  -- the comment in front is one chunk, and the header behind it is 35
  have hchunks : ∀ m ∈ headerMatches annotatedSource.toList,
      chunks annotatedSource.toList = (chunks annotatedSource.toList).take 1 ++
          (((chunks annotatedSource.toList).drop 1).take 35 ++ chunks m.header.rest) ∧
        (((chunks annotatedSource.toList).take 1).flatMap Chunk.text).length = m.start ∧
        ∀ k ∈ ((chunks annotatedSource.toList).drop 1).take 35, k.isComment = false := by
    decide +kernel
  have happart : CommentsApart annotatedSource.toList :=
    { outside := fun m hm => ⟨_, _, hchunks m hm⟩
      places := by decide +kernel
      heads := by decide +kernel }
  exact ⟨happart, ofSource_blankComments .strict happart⟩

/-- A table that is commented out. -/
def commentedSource : String :=
  "// export const user = pgTable(\"user\", (t) => (\x7b id: t.text() \x7d))"

/-- **A table that is commented out is declared**, and none is with blanks in its place. -/
theorem ofSource_commentedSource :
    let user : Table :=
      { name := "user"
        tableName := "user"
        dialect := .drizzle
        columns := [{ name := "id", typeName := "text" }] }
    DeclaredTables.ofSource .lenient commentedSource = .ok ⟨[user], []⟩ ∧
      DeclaredTables.ofSource .lenient (blankComments commentedSource) = .ok ⟨[], []⟩ := by
  decide +kernel

end SchemaForge.Declaration
