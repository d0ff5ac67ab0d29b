import SchemaForge.Proofs.Declaration.Body
import SchemaForge.Proofs.Declaration.ChainColumn

/-!
# Type arguments in columns

To the search for commas angle brackets are no brackets.  So an entry is in one piece as long as
every comma of its type arguments stands in brackets of another kind, and then it gives one column,
with all that is called behind the type arguments.  With any other comma it falls apart, and what
is called behind the comma is lost.

## Main definitions

* `IsFront`, `IsBack` — what may stand around an entry in its object.

## Main results

* `exists_entries_eq` — an entry without outer commas in its type arguments is one entry.
* `typed_chain_is_one_column` — **it gives one column**, and all else is read as if it were not
  there.
* `comma_in_type_arguments_splits` — a comma in type arguments that takes a modifier away.
-/

namespace SchemaForge.Declaration

open Text

/-! ### The entry in its object -/

namespace ChainColumn

variable {s : ChainColumn}

namespace WellFormed

theorem text_ne_nil (h : s.WellFormed) : s.text ≠ [] :=
  List.append_ne_nil_of_left_ne_nil
    (List.append_ne_nil_of_right_ne_nil [] (columnName_ne_nil h.name s.quote)) _

theorem breaksSlash_text (h : s.WellFormed) : BreaksSlash s.text := by
  have hname := breaksSlash_columnName h.quote h.name
  obtain ⟨c, rest, hcons⟩ := List.exists_cons_of_ne_nil (columnName_ne_nil h.name s.quote)
  rw [hcons] at hname
  rw [text, ChainColumn.parts, List.cons_append, partsText_cons, hcons]
  exact breaksSlash_cons.2 (breaksSlash_cons.1 hname)

/-- An entry as it is read starts with its name, and ends in a parenthesis. -/
theorem trim_text (h : s.WellFormed) {lead trail : List Char}
    (hlead : ∀ c ∈ lead, isBlank c = true) (htrail : ∀ c ∈ trail, isBlank c = true) :
    trim (lead ++ (s.bare.text ++ trail)) = s.bare.text := by
  have hstart : ∀ d ∈ (s.bare.text ++ trail).head?, isBlank d = false := by
    rw [text_eq]
    cases hquote : s.bare.quote with
    | none =>
      intro d hd
      rw [Option.toList_none, List.nil_append, List.append_assoc] at hd
      exact isBlank_eq_false_of_isWordChar (h.name.head?_append d hd)
    | some q => simpa using isBlank_eq_false_of_isColumnQuote (h.quote q hquote)
  obtain ⟨front, hfront⟩ := s.bare.exists_text_eq
  have htrim : trimStart (lead ++ (s.bare.text ++ trail)) = s.bare.text ++ trail :=
    skipBlanks_append hlead hstart
  rw [trim, htrim, trimEnd_append_of_isBlank _ htrail, hfront, trimEnd_concat front (by decide)]

theorem exists_not_isFiller (h : s.WellFormed) : ∃ k ∈ chunks s.text, k.isFiller = false := by
  rw [text_eq]
  cases hquote : s.quote with
  | none =>
    obtain ⟨hne, hall⟩ := h.name
    obtain ⟨c, name, hname⟩ := List.exists_cons_of_ne_nil hne
    have hc := hall c (hname ▸ List.mem_cons_self ..)
    refine ⟨.char c, ?_, isFiller_eq_false_of_isWordChar hc⟩
    rw [hname, Option.toList_none, List.nil_append, List.cons_append,
      chunks_cons_of_isOuter (isOuter_of_isWordChar hc)]
    exact List.mem_cons_self ..
  | some q =>
    refine ⟨.literal (q :: (s.name ++ [q])), ?_, rfl⟩
    have hchunks := chunks_quoted (h.quote q hquote) h.name.2
    simp only [Option.toList_some, List.cons_append, List.nil_append]
    rw [hchunks]
    exact List.mem_cons_self ..

/-- An entry between gaps is cut into chunks by itself. -/
theorem chunks_between (h : s.WellFormed) {lead : List Char} (hlead : IsGap lead)
    (trail : List Char) :
    chunks (lead ++ (s.text ++ trail)) = chunks lead ++ (chunks s.text ++ chunks trail) := by
  obtain ⟨hapart, hown⟩ := IsApart.gap_append hlead h.isApart_text h.text_ne_nil h.breaksSlash_text
  rw [← List.append_assoc, hapart.chunks_append, hown, List.append_assoc]

theorem isClosed_between (h : s.WellFormed) {lead trail : List Char} (hlead : IsGap lead)
    (htrail : IsGap trail) : IsClosed (lead ++ (s.text ++ trail)) := by
  refine ⟨?_, ?_⟩
  · rw [h.chunks_between hlead]
    exact List.forall_mem_append.2 ⟨hlead.isClosed.ended,
      List.forall_mem_append.2 ⟨h.isApart_text.closed.ended, htrail.isClosed.ended⟩⟩
  · rw [h.chunks_between hlead, depthThrough_append hlead.isClosed.balanced,
      depthThrough_append h.isApart_text.closed.balanced]
    exact htrail.isClosed.balanced

/-- **An entry without outer commas in its type arguments is one entry.** -/
theorem exists_entries_eq (h : s.WellFormed) (hcommas : s.typeCommas = 0) {lead trail : List Char}
    (hlead : IsGap lead) (htrail : IsGap trail) (p : Position) :
    ∃ place, entries p (chunks (lead ++ (s.text ++ trail))) = [⟨s.bare.text, place⟩] := by
  have hchunks := h.chunks_between hlead trail
  have hnone : outerCommas 0 (chunks (lead ++ (s.text ++ trail))) = 0 := by
    rw [hchunks, outerCommas_append hlead.isClosed.balanced, outerCommas_of_isGap hlead,
      outerCommas_append h.isApart_text.closed.balanced, outerCommas_of_isGap htrail, ← commasIn,
      h.commasIn_text, hcommas]
  have htext :
      trim ((chunks (lead ++ (s.text ++ trail))).flatMap Chunk.bareText) = s.bare.text := by
    rw [hchunks, List.flatMap_append, List.flatMap_append, ← withoutComments, ← withoutComments,
      ← withoutComments, h.withoutComments_text]
    exact h.trim_text hlead.isBlank_withoutComments htrail.isBlank_withoutComments
  obtain ⟨k, hk, hfiller⟩ := h.exists_not_isFiller
  obtain ⟨place, hplace⟩ := exists_firstPosition?_eq_some
    ⟨k, (hchunks ▸ List.mem_append_right _ (List.mem_append_left _ hk) :
      k ∈ chunks (lead ++ (s.text ++ trail))), hfiller⟩ p
  have hne : s.bare.text ≠ [] := by
    obtain ⟨front, hfront⟩ := s.bare.exists_text_eq
    rw [hfront]
    exact List.append_ne_nil_of_right_ne_nil _ (List.cons_ne_nil _ _)
  refine ⟨place, ?_⟩
  rw [entries, splitCommas_of_outerCommas_eq_zero hnone, groupEntries, entryAt, htext, hplace]
  split
  · next hnil => exact absurd hnil hne
  · next heq _ =>
    cases heq
    rfl
  · next heq _ => cases heq

end WellFormed

end ChainColumn

/-! ### Objects -/

/-- Text in front of an entry: none, or closed text and a comma. -/
def IsFront (front : List Char) : Prop :=
  front = [] ∨ ∃ left, IsClosed left ∧ front = left ++ [',']

/-- Text behind an entry: none, or a comma and more. -/
def IsBack (back : List Char) : Prop :=
  back = [] ∨ ∃ right, back = ',' :: right

section

variable {front back body : List Char}

theorem chunks_append_comma {text : List Char} (h : AreEnded (chunks text)) (rest : List Char) :
    chunks (text ++ ',' :: rest) = chunks text ++ .char ',' :: chunks rest := by
  rw [chunks_append h (breaksSlash_cons.2 (by decide)), chunks_cons,
    chunk_eq_char (by decide) (.inl (by decide))]

theorem entries_nil (p : Position) : entries p [] = [] := rfl

/-- The entries in front of an entry are read by themselves. -/
theorem entries_front (h : IsFront front) (p : Position) (rest : List Char) :
    entries p (chunks (front ++ rest)) =
      entries p (chunks front) ++ entries (p.after front) (chunks rest) := by
  rcases h with rfl | ⟨left, hleft, rfl⟩
  · rw [chunks_nil, entries_nil]
    rfl
  · rw [List.append_assoc, List.singleton_append, chunks_append_comma hleft.ended,
      chunks_append_comma hleft.ended, entries_append_comma hleft.balanced,
      entries_append_comma hleft.balanced, chunks_flatMap_text, chunks_nil, entries_nil,
      List.append_nil, Position.after_append]
    rfl

/-- The entries behind an entry are read by themselves. -/
theorem entries_back (h : IsBack back) (hbody : IsClosed body) (p : Position) :
    entries p (chunks (body ++ back)) =
      entries p (chunks body) ++ entries (p.after body) (chunks back) := by
  rcases h with rfl | ⟨right, rfl⟩
  · rw [chunks_nil, entries_nil, List.append_nil, List.append_nil]
  · have hcomma : entries (p.after body) (chunks (',' :: right)) =
        entries ((p.after body).next ',') (chunks right) := by
      have hnil : AreEnded (chunks []) := by simp [AreEnded]
      have hright := chunks_append_comma hnil right
      rw [List.nil_append, chunks_nil] at hright
      rw [hright, entries_append_comma rfl, entries_nil]
      rfl
    rw [hcomma, chunks_append_comma hbody.ended, entries_append_comma hbody.balanced,
      chunks_flatMap_text]

end

/-- **An entry whose type arguments have no outer comma gives one column**, whatever stands in
front of it and behind it in its object.  It is one entry, which is read as the column that it
declares, with the flags of the methods called in its whole chain; and the object is read as if it
were that column and what stands around it, so no piece of the entry is left out, and none stops a
strict reader. -/
theorem typed_chain_is_one_column (mode : Mode) {m : Match} {inside behind : List Chunk}
    (hclosing : splitClosing 0 (chunks m.header.rest) = some (inside, behind)) {s : ChainColumn}
    (hs : s.WellFormed) (hparam : s.param = m.header.param) (hcommas : s.typeCommas = 0)
    {front lead trail back : List Char} (hfront : IsFront front) (hlead : IsGap lead)
    (htrail : IsGap trail) (hback : IsBack back)
    (htext : inside.flatMap Chunk.text = front ++ (lead ++ (s.text ++ trail) ++ back)) :
    let es := entries m.bodyPosition (chunks front)
    let es' :=
      entries ((m.bodyPosition.after front).after (lead ++ (s.text ++ trail))) (chunks back)
    (∃ place, entries m.bodyPosition inside = es ++ ⟨s.bare.text, place⟩ :: es') ∧
      m.readEntries mode (entries m.bodyPosition inside) = do
        let (columns, unread) ← m.readEntries mode es
        let (columns', unread') ← m.readEntries mode es'
        return (columns ++ s.bare.column :: columns', unread ++ unread') := by
  intro es es'
  have hinside : chunks (front ++ (lead ++ (s.text ++ trail) ++ back)) = inside := by
    rw [← htext]
    exact (isClosed_of_splitClosing hclosing).2
  obtain ⟨place, hentry⟩ := hs.exists_entries_eq hcommas hlead htrail (m.bodyPosition.after front)
  have hentries : entries m.bodyPosition inside = es ++ ⟨s.bare.text, place⟩ :: es' := by
    rw [← hinside, entries_front hfront, entries_back hback
      (hs.isClosed_between hlead htrail), hentry]
    rfl
  refine ⟨⟨place, hentries⟩, ?_⟩
  rw [hentries, Match.readEntries_append, Match.readEntries, ← hparam, hs.columnOf?_text]
  simp

/-- A column with type arguments behind a gap, and a modifier behind them. -/
def jsonColumn (gap types : List Char) : ChainColumn where
  quote := none
  name := "meta".toList
  beforeColon := []
  beforeParam := " ".toList
  param := "t".toList
  beforeDot := []
  beforeBuilder := []
  builder := "json".toList
  beforeArguments := []
  arguments := []
  chain := [⟨gap, "$type".toList, some types, []⟩, ⟨[], "notNull".toList, none, []⟩]

theorem wellFormed_jsonColumn {gap types : List Char} (hgap : IsGap gap)
    (htypes : IsClosed types) : (jsonColumn gap types).WellFormed := by
  have hempty : IsClosed [] := IsEntryText.nil.isClosed
  have hname : IsWord "meta".toList := by decide
  have hbuilder : IsWord "json".toList := by decide
  have hspace : IsGap " ".toList := by decide +kernel
  have htyped : ("$type".toList.all fun d => isIdentChar d || d == '$') = true := by decide
  have hnotNull : ("notNull".toList.all fun d => isIdentChar d || d == '$') = true := by decide
  refine ⟨nofun, hname.isFreeWord, isGap_nil, hspace, isWord_t.isFreeWord, isGap_nil, isGap_nil,
    hbuilder.isFreeWord, isGap_nil, hempty, ?_⟩
  simp only [jsonColumn, List.forall_mem_cons]
  refine ⟨⟨hgap, isMethodChar_of_all htyped, ?_, hempty⟩,
    ⟨isGap_nil, isMethodChar_of_all hnotNull, nofun, hempty⟩, by simp⟩
  rintro _ ⟨⟩
  exact htypes

/-- Type arguments on a line of their own, behind a comment. -/
def typedColumn : ChainColumn :=
  jsonColumn " // a, (b\n    ".toList "\x7b a: [x, y], b: ',' \x7d".toList

theorem wellFormed_typedColumn : typedColumn.WellFormed :=
  wellFormed_jsonColumn (by decide +kernel) (isClosed_iff.2 (by cbv))

/-- The column between two others, behind a header. -/
def typedMatch : Match :=
  { header := ⟨"user".toList, "user".toList, "t".toList,
      "id: t.serial(),\n  ".toList ++ (typedColumn.text ++ ", tag: t.text() \x7d))".toList)⟩
    text := "export const user = pgTable('user', (t) => (\x7b".toList
    start := 0
    position := .start }

/-- What stands between the braces. -/
def typedInside : List Chunk :=
  chunks ("id: t.serial(),".toList ++
    ("\n  ".toList ++ (typedColumn.text ++ []) ++ ", tag: t.text() ".toList))

theorem typed_chain_is_one_column_sample :
    typedColumn.WellFormed ∧ typedColumn.typeCommas = 0 ∧ typedColumn.bare.column.isNotNull = true ∧
      (splitClosing 0 (chunks typedMatch.header.rest)).map Prod.fst = some typedInside ∧
      typedMatch.readEntries .strict (entries typedMatch.bodyPosition typedInside) =
        .ok ([{ name := "id", typeName := "serial" }, typedColumn.bare.column,
          { name := "tag", typeName := "text" }], []) := by
  have hclosing : splitClosing 0 (chunks typedMatch.header.rest) =
      some (typedInside, chunks "))".toList) := by decide +kernel
  have hcommas : typedColumn.typeCommas = 0 := by decide +kernel
  have htext : typedInside.flatMap Chunk.text = "id: t.serial(),".toList ++
      ("\n  ".toList ++ (typedColumn.text ++ []) ++ ", tag: t.text() ".toList) :=
    chunks_flatMap_text _
  have hleft : IsClosed "id: t.serial()".toList := isClosed_iff.2 (by cbv)
  obtain ⟨-, hread⟩ := typed_chain_is_one_column .strict hclosing wellFormed_typedColumn rfl hcommas
    (.inr ⟨_, hleft, rfl⟩) (by decide +kernel) isGap_nil (.inr ⟨_, rfl⟩) htext
  refine ⟨wellFormed_typedColumn, hcommas, by decide +kernel, by rw [hclosing]; rfl, ?_⟩
  rw [hread]
  decide +kernel

/-- A type of two arguments. -/
def recordColumn : ChainColumn :=
  jsonColumn [] "Record<string, unknown>".toList

/-- The column in its table. -/
def recordSource : String :=
  "export const user = pgTable(\"user\", (t) => (\x7b\n  " ++ String.ofList recordColumn.text ++
    ",\n\x7d))\n"

/-- **A comma in type arguments takes away the modifier behind it**, and what follows the comma is
left out, or stops a strict reader. -/
theorem comma_in_type_arguments_splits :
    let user : Table :=
      { name := "user"
        tableName := "user"
        dialect := .drizzle
        columns := [{ name := "meta", typeName := "json" }] }
    let piece : Unread := ⟨.unrecognised, "user", ⟨2, 39⟩, "unknown>>().notNull()"⟩
    recordColumn.WellFormed ∧
      recordColumn.column = { name := "meta", typeName := "json", isNotNull := true } ∧
      recordColumn.typeCommas = 1 ∧
      DeclaredTables.ofSource .lenient recordSource = .ok ⟨[user], [piece]⟩ ∧
      DeclaredTables.ofSource .strict recordSource = .error piece :=
  ⟨wellFormed_jsonColumn isGap_nil (isClosed_iff.2 (by cbv)), by decide +kernel⟩

end SchemaForge.Declaration
