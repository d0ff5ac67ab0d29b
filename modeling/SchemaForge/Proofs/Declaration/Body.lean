import SchemaForge.Proofs.Declaration.Column
import SchemaForge.Proofs.Declaration.Readings

/-!
# The column object read back

Between the brace that opens the column object and the one that closes it, every column stands on
its line with a comma behind it, and the last line is blank.  The brace that closes is found
because the lines are closed, the lines are cut apart at their commas, and the blank line is no
entry.

## Main definitions

* `ColumnSpec.groupText` — a column between two commas.
* `bodyText` — what stands between the braces.

## Main results

* `splitClosing_bodyText` — the brace that closes is the one that was written.
* `splitCommas_bodyText` — the columns are cut apart.
* `readingOf_bodyText` — **the object is read as the table that was declared.**
-/

namespace SchemaForge.Declaration

open Text

/-! ### Text between the braces -/

/-- A column as it stands between two commas: on a line of its own, indented. -/
def ColumnSpec.groupText (s : ColumnSpec) : List Char :=
  "\n  ".toList ++ entryText s.name.toList s.calls

/-- What stands between the braces. -/
def bodyText : List ColumnSpec → List Char
  | [] => ['\n']
  | s :: columns => s.groupText ++ ',' :: bodyText columns

/-- The brackets behind the columns. -/
def closingText : List Char :=
  "))\n".toList

theorem bodyText_append_eq (columns : List ColumnSpec) (rest : List Char) :
    bodyText columns ++ rest = '\n' :: (columns.flatMap ColumnSpec.text ++ rest) := by
  induction columns with
  | nil => rfl
  | cons s columns ih =>
    rw [bodyText, List.append_assoc, List.cons_append, ih, List.flatMap_cons, ColumnSpec.text,
      ColumnSpec.groupText]
    simp

theorem TableSpec.text_append_eq (s : TableSpec) (rest : List Char) :
    s.text ++ rest =
      s.headerText ++ (bodyText s.columns ++ '\x7d' :: (closingText ++ rest)) := by
  rw [bodyText_append_eq, text, List.append_assoc, List.cons_append, List.append_assoc]
  rfl

/-! ### Brackets -/

theorem isPlain_comma : IsPlain [','] := by
  simp only [IsPlain, List.mem_singleton, forall_eq]
  decide

theorem chunks_comma_append (rest : List Char) :
    chunks (',' :: rest) = .char ',' :: chunks rest :=
  chunks_plain_append isPlain_comma rest

theorem ColumnSpec.WellFormed.isEntryText_groupText {s : ColumnSpec} (h : s.WellFormed) :
    IsEntryText s.groupText :=
  (isEntryText_of_isOuter (List.all_eq_true.1 (by decide))).append
    (isEntryText_entryText h.name h.calls)

theorem chunks_bodyText_cons {s : ColumnSpec} (h : s.WellFormed) (columns : List ColumnSpec) :
    chunks (bodyText (s :: columns)) =
      chunks s.groupText ++ .char ',' :: chunks (bodyText columns) := by
  have hcomma : BreaksSlash (',' :: bodyText columns) := breaksSlash_cons.2 (by decide)
  rw [bodyText, chunks_append h.isEntryText_groupText.isClosed.ended hcomma, chunks_comma_append]

theorem isEntryText_lineFeed : IsEntryText ['\n'] :=
  .char (by decide) .nil

/-- What stands between the braces is closed. -/
theorem isClosed_bodyText {columns : List ColumnSpec} (h : ∀ s ∈ columns, s.WellFormed) :
    IsClosed (bodyText columns) := by
  induction columns with
  | nil => exact isEntryText_lineFeed.isClosed
  | cons s columns ih =>
    have hs := h s (List.mem_cons_self ..)
    have hgroup := hs.isEntryText_groupText.isClosed
    have hcolumns := ih fun d hd => h d (List.mem_cons_of_mem _ hd)
    refine ⟨?_, ?_⟩
    · rw [chunks_bodyText_cons hs]
      exact List.forall_mem_append.2
        ⟨hgroup.ended, List.forall_mem_cons.2 ⟨rfl, hcolumns.ended⟩⟩
    · rw [chunks_bodyText_cons hs, depthThrough_append hgroup.balanced]
      exact hcolumns.balanced

/-- The brace that closes the object is the one behind the columns. -/
theorem splitClosing_bodyText {columns : List ColumnSpec} (h : ∀ s ∈ columns, s.WellFormed)
    (rest : List Char) :
    splitClosing 0 (chunks (bodyText columns ++ '\x7d' :: rest)) =
      some (chunks (bodyText columns), chunks rest) := by
  have hclosed := isClosed_bodyText h
  have hbrace : BreaksSlash ('\x7d' :: rest) := breaksSlash_cons.2 (by decide)
  have hsplit := splitClosing_append hclosed.ended hclosed.balanced 0
    (.char '\x7d' :: chunks rest)
  rw [chunks_append hclosed.ended hbrace, chunks_cons,
    chunk_eq_char (by decide) (.inl (by decide)), hsplit]
  show some (chunks (bodyText columns) ++ [], chunks rest) = _
  rw [List.append_nil]

/-! ### Groups -/

theorem foldr_consFirst (cs : List Chunk) (group : List Chunk) (groups : List (List Chunk)) :
    cs.foldr consFirst (group :: groups) = (cs ++ group) :: groups := by
  induction cs with
  | nil => rfl
  | cons c cs ih => rw [List.foldr_cons, ih, consFirst, List.cons_append]

/-- A first chunk that others take the place of. -/
theorem map_flatMap_consFirst (g : Chunk → List Chunk) (k : Chunk) {groups : List (List Chunk)}
    (h : groups ≠ []) :
    (consFirst k groups).map (·.flatMap g) =
      (g k).foldr consFirst (groups.map (·.flatMap g)) := by
  obtain ⟨group, groups, rfl⟩ := List.exists_cons_of_ne_nil h
  rw [List.map_cons, foldr_consFirst, consFirst, List.map_cons, List.flatMap_cons]

/-- **The columns are cut apart at their commas**, and a blank line is left. -/
theorem splitCommas_bodyText {columns : List ColumnSpec} (h : ∀ s ∈ columns, s.WellFormed) :
    splitCommas 0 (chunks (bodyText columns)) =
      columns.map (fun s => chunks s.groupText) ++ [[.char '\n']] := by
  induction columns with
  | nil =>
    show splitCommas 0 (chunks ['\n']) = [[.char '\n']]
    rw [chunks_cons_of_isOuter (by decide), chunks_nil]
    rfl
  | cons s columns ih =>
    have hs := h s (List.mem_cons_self ..)
    have hcolumns := ih fun d hd => h d (List.mem_cons_of_mem _ hd)
    rw [chunks_bodyText_cons hs, hs.isEntryText_groupText.splitCommas_append, splitCommas,
      if_pos ⟨rfl, rfl⟩, hcolumns, foldr_consFirst, List.append_nil, List.map_cons,
      List.cons_append]

/-! ### Entries -/

/-- Calls end in a parenthesis. -/
theorem exists_callsText_eq (c : Call) (calls : List Call) :
    ∃ front, callsText (c :: calls) = front ++ [')'] := by
  induction calls generalizing c with
  | nil => exact ⟨callHead c.name ++ c.argument, by simp [callsText, Call.text]⟩
  | cons d calls ih =>
    obtain ⟨front, hfront⟩ := ih d
    refine ⟨callHead c.name ++ c.argument ++ ')' :: front, ?_⟩
    rw [callsText_cons, hfront, List.append_assoc, List.append_assoc, List.append_assoc,
      List.cons_append]

/-- A column starts with its name and ends in a parenthesis, so it has no outer blanks. -/
theorem ColumnSpec.WellFormed.trim_groupText {s : ColumnSpec} (h : s.WellFormed) :
    trim (withoutComments s.groupText) = s.bareText := by
  have hindent : IsPlain "\n  ".toList := isPlain_of_isOuter (List.all_eq_true.1 (by decide))
  have hstart : trimStart ("\n  ".toList ++ s.bareText) = s.bareText :=
    skipBlanks_word h.name _
  have hend : ∃ front, s.bareText = front ++ [')'] := by
    obtain ⟨front, hfront⟩ := exists_callsText_eq
      (Call.bare ⟨s.builder.toList, s.arguments.toList⟩)
      ((s.modifiers.map ModifierCall.call).map Call.bare)
    refine ⟨s.name.toList ++ (": t".toList ++ front), ?_⟩
    rw [bareText, entryText, ColumnSpec.calls, List.map_cons, hfront, List.append_assoc,
      List.append_assoc]
  obtain ⟨front, hfront⟩ := hend
  rw [groupText, withoutComments_plain_append hindent, withoutComments_entryText h.name h.calls,
    trim, ← bareText, hstart, hfront, trimEnd_concat front (by decide)]

theorem isFiller_eq_false_of_isWordChar {c : Char} (h : isWordChar c = true) :
    (Chunk.char c).isFiller = false := by
  have hne := fun d hd => ne_of_isWordChar h (d := d) hd
  simp only [Chunk.isFiller, isAsciiBlank, Bool.or_eq_false_iff, beq_eq_false_iff_ne]
  refine ⟨⟨⟨⟨⟨?_, ?_⟩, ?_⟩, ?_⟩, ?_⟩, ?_⟩ <;> exact hne _ (by decide)

/-- A column has a place: that of its name. -/
theorem ColumnSpec.WellFormed.exists_firstPosition?_eq {s : ColumnSpec} (h : s.WellFormed)
    (p : Position) : ∃ position, firstPosition? p (chunks s.groupText) = some position := by
  have hindent : IsPlain "\n  ".toList := isPlain_of_isOuter (List.all_eq_true.1 (by decide))
  have hchars := h.name.isWordChar
  obtain ⟨c, rest, hname, -⟩ := h.name
  rw [hname] at hchars
  have hc := hchars c (List.mem_cons_self ..)
  rw [groupText, entryText, hname, chunks_plain_append hindent, List.cons_append,
    chunks_cons_of_isOuter (isOuter_of_isWordChar hc)]
  refine ⟨((p.next '\n').next ' ').next ' ', ?_⟩
  -- the indentation is blank, and the name is not
  show firstPosition? (((p.next '\n').next ' ').next ' ') (.char c :: _) = _
  rw [firstPosition?, if_neg (by simp [isFiller_eq_false_of_isWordChar hc])]

theorem ColumnSpec.bareText_ne_nil {s : ColumnSpec} (h : s.WellFormed) : s.bareText ≠ [] :=
  List.append_ne_nil_of_left_ne_nil h.name.ne_nil _

/-- The group of a column is an entry. -/
theorem ColumnSpec.WellFormed.exists_entryAt_eq {s : ColumnSpec} (h : s.WellFormed)
    (p : Position) : ∃ position, entryAt p (chunks s.groupText) = some ⟨s.bareText, position⟩ := by
  obtain ⟨position, hposition⟩ := h.exists_firstPosition?_eq p
  have htext : trim ((chunks s.groupText).flatMap Chunk.bareText) = s.bareText := h.trim_groupText
  refine ⟨position, ?_⟩
  rw [entryAt, htext, hposition]
  split
  · next hnil => exact absurd hnil (bareText_ne_nil h)
  · next heq _ =>
    cases heq
    rfl
  · next heq _ => cases heq

/-- The entries are those of the columns, in order. -/
theorem map_text_groupEntries {columns : List ColumnSpec} (h : ∀ s ∈ columns, s.WellFormed)
    (p : Position) :
    (groupEntries p (columns.map (fun s => chunks s.groupText) ++ [[.char '\n']])).map Entry.text =
      columns.map ColumnSpec.bareText := by
  induction columns generalizing p with
  | nil => rfl
  | cons s columns ih =>
    obtain ⟨position, hentry⟩ := (h s (List.mem_cons_self ..)).exists_entryAt_eq p
    rw [List.map_cons, List.cons_append, groupEntries, hentry, List.map_append,
      ih fun d hd => h d (List.mem_cons_of_mem _ hd)]
    rfl

/-! ### Readings -/

theorem filterMap_columnOf?_bareText {columns : List ColumnSpec}
    (h : ∀ s ∈ columns, s.WellFormed) :
    (columns.map ColumnSpec.bareText).filterMap (columnOf? ['t']) =
      columns.map ColumnSpec.explicitColumn := by
  rw [List.filterMap_map, ← List.filterMap_eq_map]
  exact List.filterMap_congr fun s hs => (h s hs).columnOf?_eq

/-- A column gets the default that its type implies. -/
theorem ColumnSpec.column_eq (s : ColumnSpec) :
    (if Dialect.drizzle.hasImplicitDefault s.explicitColumn.typeName then
      { s.explicitColumn with hasDefault := true } else s.explicitColumn) = s.column := by
  have htype : s.explicitColumn.typeName = s.builder := rfl
  rw [htype]
  by_cases himplicit : Dialect.drizzle.hasImplicitDefault s.builder = true
  · rw [if_pos himplicit]
    simp [explicitColumn, column, himplicit]
  · rw [if_neg himplicit]
    simp [explicitColumn, column, himplicit]

theorem TableSpec.table_eq (s : TableSpec) :
    Table.withImplicitDefaults { s.table with
      columns := s.columns.map ColumnSpec.explicitColumn } = s.table := by
  have hcolumns : (s.columns.map ColumnSpec.explicitColumn).map (fun c =>
      if Dialect.drizzle.hasImplicitDefault c.typeName then { c with hasDefault := true } else c) =
        s.columns.map ColumnSpec.column := by
    rw [List.map_map]
    exact List.map_congr_left fun c _ => c.column_eq
  rw [Table.withImplicitDefaults]
  exact congrArg (fun columns => { s.table with columns := columns }) hcolumns

/-- **The object of a declaration is read as the table that was declared**, and nothing in it is
left out. -/
theorem readingOf_bodyText {s : TableSpec} (h : s.WellFormed) {m : Match} {rest : List Char}
    (hm : m.header = ⟨s.binding.toList, s.tableName.toList, ['t'], rest⟩) :
    m.readingOf (chunks (bodyText s.columns)) = ⟨some s.table, []⟩ := by
  have htexts : (entries m.bodyPosition (chunks (bodyText s.columns))).map Entry.text =
      s.columns.map ColumnSpec.bareText := by
    rw [entries, splitCommas_bodyText h.columns, map_text_groupEntries h.columns]
  -- every entry is the entry of a column, and so is recognised
  have hunread : ∀ e ∈ entries m.bodyPosition (chunks (bodyText s.columns)),
      (columnOf? ['t'] e.text).isSome = true := by
    intro e he
    have htext := List.mem_map_of_mem (f := Entry.text) he
    rw [htexts] at htext
    obtain ⟨c, hc, hbare⟩ := List.mem_map.1 htext
    rw [← hbare, (h.columns c hc).columnOf?_eq]
    rfl
  rw [Match.readingOf, Match.tableOf, Match.unreadEntries, hm]
  dsimp only
  rw [htexts, filterMap_columnOf?_bareText h.columns, String.ofList_toList, String.ofList_toList]
  congr 1
  · exact congrArg some s.table_eq
  · rw [List.filterMap_eq_nil_iff]
    intro e he
    exact if_pos (hunread e he)

end SchemaForge.Declaration
