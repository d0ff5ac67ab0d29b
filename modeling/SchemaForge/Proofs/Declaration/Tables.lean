import SchemaForge.Proofs.Declaration.Body
import SchemaForge.Proofs.Declaration.Headers

/-!
# Declarations read back

Declarations that stand one after another are read as their tables.  A header is found at the
start of each, and none behind it: inside the declaration no blank follows the word `export`, so
the next header is that of the next declaration.

## Main definitions

* `IsQuiet` — a text in which no declaration starts.

## Main results

* `headerMatchesFrom_text` — the one header of a declaration.
* `readingsFrom_texts` — what the headers of declarations give.
* `ofSource_declarations` — **declarations are read as their tables.**
-/

namespace SchemaForge.Declaration

open Text

/-! ### Where no declaration starts -/

/-- No declaration starts in the text: nowhere does a blank follow `export`. -/
def IsQuiet (text : List Char) : Prop :=
  ∀ b, isBlank b = true → ¬ "export".toList ++ [b] <:+: text

section

variable {text left right : List Char} {c : Char}

theorem isQuiet_of_isBlank_eq_false (h : ∀ c ∈ text, isBlank c = false) : IsQuiet text := by
  intro b hb hoccurs
  have hmem := hoccurs.subset (List.mem_append_right _ (List.mem_singleton_self b))
  rw [h b hmem] at hb
  cases hb

/-- The word and a blank are seven characters. -/
theorem isQuiet_of_length_le (h : text.length ≤ 6) : IsQuiet text := by
  intro b _ hoccurs
  have hlength : 7 ≤ text.length := hoccurs.length_le
  omega

/-- A character that is no blank and not of the word keeps two sides apart. -/
theorem IsQuiet.append_cons (hc : isBlank c = false) (hexport : c ∉ "export".toList)
    (hleft : IsQuiet left) (hright : IsQuiet right) : IsQuiet (left ++ c :: right) := by
  intro b hb hoccurs
  have hpart : c ∉ "export".toList ++ [b] := by
    intro hmem
    rcases List.mem_append.1 hmem with hmem | hmem
    · exact hexport hmem
    · rw [← List.mem_singleton.1 hmem, hc] at hb
      cases hb
  rcases isInfix_append_cons hpart hoccurs with h | h
  · exact hleft b hb h
  · exact hright b hb h

/-- The word starts with its first letter. -/
theorem IsQuiet.append_left (hleft : ∀ d ∈ left, d ≠ 'e') (hright : IsQuiet right) :
    IsQuiet (left ++ right) := by
  intro b hb hoccurs
  refine hright b hb (isInfix_of_isInfix_append (fun d hd => ?_) (by simp) hoccurs)
  rintro ⟨rfl⟩
  exact hleft _ hd rfl

theorem IsWord.isQuiet (h : IsWord text) : IsQuiet text :=
  isQuiet_of_isBlank_eq_false fun c hc => isBlank_eq_false_of_isWordChar (h.isWordChar c hc)

theorem IsArgumentText.isQuiet (h : IsArgumentText text) : IsQuiet text := by
  intro b _ hoccurs
  exact h.notExported ((List.prefix_append ..).isInfix.trans hoccurs)

/-- No header starts in a quiet text, wherever the text stands. -/
theorem header?_eq_none_of_isQuiet (h : IsQuiet (text ++ ['\n'])) (rest : List Char) :
    header? (text ++ '\n' :: rest) = none := by
  refine header?_eq_none fun b hb hpart => ?_
  have htext : text ++ ['\n'] <+: text ++ '\n' :: rest := ⟨rest, by simp⟩
  rcases List.prefix_or_prefix_of_prefix hpart htext with hinside | hbehind
  · exact h b hb hinside.isInfix
  -- the word has no line feed, so the blank is the one at the end of the text
  rcases List.prefix_concat_iff.1 hbehind with heq | hword
  · exact h b hb (heq ▸ List.infix_refl _)
  · exact absurd (hword.subset (List.mem_append_right _ (List.mem_singleton_self '\n')))
      (by decide)

end

/-! ### Quiet parts of declarations -/

theorem ModifierCall.WellFormed.isQuiet_argument {m : ModifierCall} (h : m.WellFormed) :
    IsQuiet m.argument := by
  cases m with
  | defaultTo argument => exact h.1.isQuiet
  | defaultFn argument => exact h.1.isQuiet
  | references table column =>
    have harrow : ∀ d ∈ "() => ".toList, d ≠ 'e' := by simp
    exact IsQuiet.append_left harrow
      (IsQuiet.append_cons (by decide) (by decide) h.1.isQuiet h.2.isQuiet)
  | _ => exact isQuiet_of_isBlank_eq_false (by simp [argument])

theorem ModifierCall.isBlank_call_name (m : ModifierCall) :
    ∀ d ∈ m.call.name, isBlank d = false := by
  cases m <;> simp [call, method] <;> decide

theorem isQuiet_callsText {calls : List Call}
    (h : ∀ c ∈ calls, (∀ d ∈ c.name, isBlank d = false) ∧ IsQuiet c.argument) :
    IsQuiet (callsText calls) := by
  induction calls with
  | nil => exact isQuiet_of_isBlank_eq_false (by simp [callsText])
  | cons c calls ih =>
    obtain ⟨hname, hargument⟩ := h c (List.mem_cons_self ..)
    have hhead : IsQuiet ('.' :: c.name) :=
      isQuiet_of_isBlank_eq_false (List.forall_mem_cons.2 ⟨by decide, hname⟩)
    have hcalls := ih fun d hd => h d (List.mem_cons_of_mem _ hd)
    rw [callsText, List.flatMap_cons, text_append_eq]
    exact hhead.append_cons (by decide) (by decide)
      (hargument.append_cons (by decide) (by decide) hcalls)

theorem ColumnSpec.WellFormed.isQuiet_calls {s : ColumnSpec} (h : s.WellFormed) :
    IsQuiet (callsText s.calls) := by
  refine isQuiet_callsText (List.forall_mem_cons.2 ⟨⟨fun d hd => ?_, h.arguments.isQuiet⟩, ?_⟩)
  · exact isBlank_eq_false_of_isWordChar (h.builder.isWordChar d hd)
  · intro c hc
    obtain ⟨m, hm, rfl⟩ := List.mem_map.1 hc
    exact ⟨m.isBlank_call_name, (h.modifiers m hm).isQuiet_argument⟩

theorem ColumnSpec.WellFormed.isQuiet_groupText {s : ColumnSpec} (h : s.WellFormed) :
    IsQuiet s.groupText := by
  have hindent : ∀ d ∈ "\n  ".toList, d ≠ 'e' := by simp
  have hparam : ∀ d ∈ " t".toList, d ≠ 'e' := by simp
  -- the word `export` may be the column's name, but the colon follows it
  exact IsQuiet.append_left hindent (h.name.isQuiet.append_cons (by decide) (by decide)
    (IsQuiet.append_left hparam h.isQuiet_calls))

theorem isQuiet_bodyText {columns : List ColumnSpec} (h : ∀ s ∈ columns, s.WellFormed) :
    IsQuiet (bodyText columns) := by
  induction columns with
  | nil => exact isQuiet_of_length_le (by decide)
  | cons s columns ih =>
    have hcolumns := ih fun d hd => h d (List.mem_cons_of_mem _ hd)
    exact (h s (List.mem_cons_self ..)).isQuiet_groupText.append_cons (by decide) (by decide)
      hcolumns

/-! ### Headers -/

section

variable {text left : List Char} (start : Nat) (p : Position)

/-- The search for headers goes past a quiet text. -/
theorem headerMatchesFrom_append (h : IsQuiet (left ++ ['\n'])) (rest : List Char) :
    headerMatchesFrom start p (left ++ '\n' :: rest) =
      headerMatchesFrom (start + (left ++ ['\n']).length) (p.after (left ++ ['\n'])) rest := by
  induction left generalizing start p with
  | nil => exact headerMatchesFrom_cons start p (header?_eq_none_of_isQuiet h rest)
  | cons c left ih =>
    have hleft : IsQuiet (left ++ ['\n']) := fun b hb hoccurs =>
      h b hb (hoccurs.trans (List.suffix_cons ..).isInfix)
    have hlength : start + 1 + (left ++ ['\n']).length =
        start + (c :: left ++ ['\n']).length := by
      simp only [List.cons_append, List.length_cons]
      omega
    -- no header at this place, and what is left is quiet still
    have hnone := header?_eq_none_of_isQuiet h rest
    rw [List.cons_append] at hnone ⊢
    rw [headerMatchesFrom_cons start p hnone, ih _ _ hleft, hlength]
    rfl

end

/-- **A declaration has one header, at its start**, and the search goes on behind it. -/
theorem headerMatchesFrom_text {s : TableSpec} (h : s.WellFormed) (start : Nat) (p : Position)
    (rest : List Char) :
    headerMatchesFrom start p (s.text ++ rest) =
      ⟨⟨s.binding.toList, s.tableName.toList, ['t'],
          bodyText s.columns ++ '\x7d' :: (closingText ++ rest)⟩, s.headerText, start, p⟩ ::
        headerMatchesFrom (start + s.text.length) (p.after s.text) rest := by
  have hheader := header?_headerText h (bodyText s.columns ++ '\x7d' :: (closingText ++ rest))
  have hbody : bodyText s.columns ++ '\x7d' :: (closingText ++ rest) =
      (bodyText s.columns ++ "\x7d))".toList) ++ '\n' :: rest := by
    rw [List.append_assoc]
    rfl
  -- behind its header the declaration is quiet up to its last character, a line feed
  have hquiet : IsQuiet ((bodyText s.columns ++ "\x7d))".toList) ++ ['\n']) := by
    rw [List.append_assoc]
    exact (isQuiet_bodyText h.columns).append_cons (by decide) (by decide)
      (isQuiet_of_length_le (by decide))
  have htext : s.text =
      s.headerText ++ ((bodyText s.columns ++ "\x7d))".toList) ++ ['\n']) := by
    rw [← List.append_nil s.text, s.text_append_eq, List.append_nil, List.append_assoc]
    rfl
  have hlength : start + s.text.length = start + s.headerText.length +
      ((bodyText s.columns ++ "\x7d))".toList) ++ ['\n']).length := by
    rw [htext, List.length_append, Nat.add_assoc]
  have hafter : p.after s.text =
      (p.after s.headerText).after ((bodyText s.columns ++ "\x7d))".toList) ++ ['\n']) := by
    rw [htext, Position.after_append]
  rw [s.text_append_eq, headerMatchesFrom_of_eq_some start p hheader rfl, hbody,
    headerMatchesFrom_append _ _ hquiet, hlength, hafter]

/-! ### Readings -/

/-- The next declaration starts behind the object of this one. -/
theorem bodyStart_add_length_le (s : TableSpec) (start : Nat) :
    start + s.headerText.length + (bodyText s.columns).length ≤ start + s.text.length := by
  have htext := congrArg List.length (s.text_append_eq [])
  simp only [List.append_nil, List.length_append, List.length_cons] at htext
  omega

/-- **Every declaration gives its table**, and nothing else is read. -/
theorem readingsFrom_texts {specs : List TableSpec} (h : ∀ s ∈ specs, s.WellFormed)
    {resume start : Nat} (hstart : resume ≤ start) (p : Position) :
    readingsFrom resume (headerMatchesFrom start p (specs.flatMap TableSpec.text)) =
      specs.map fun s => ⟨some s.table, []⟩ := by
  induction specs generalizing resume start p with
  | nil =>
    rw [List.flatMap_nil, headerMatchesFrom]
    rfl
  | cons s specs ih =>
    have hs := h s (List.mem_cons_self ..)
    have hclosing := splitClosing_bodyText hs.columns
      (closingText ++ specs.flatMap TableSpec.text)
    have hrest := ih (fun d hd => h d (List.mem_cons_of_mem _ hd))
      (bodyStart_add_length_le s start) (p.after s.text)
    rw [List.flatMap_cons, headerMatchesFrom_text hs, readingsFrom, if_neg (Nat.not_lt.2 hstart)]
    dsimp only
    rw [hclosing]
    dsimp only
    rw [chunks_flatMap_text, readingOf_bodyText hs rfl, List.map_cons]
    exact congrArg _ hrest

/-- **Declarations are read as their tables**, in order, with nothing left out; so a strict reader
accepts them too. -/
theorem ofSource_declarations (mode : Mode) {specs : List TableSpec}
    (h : ∀ s ∈ specs, s.WellFormed) :
    DeclaredTables.ofSource mode (String.ofList (specs.flatMap TableSpec.text)) =
      .ok ⟨specs.map TableSpec.table, []⟩ := by
  have hreadings : readings (specs.flatMap TableSpec.text) =
      specs.map fun s => ⟨some s.table, []⟩ :=
    readingsFrom_texts h (Nat.le_refl 0) .start
  have htext : DeclaredTables.ofText (specs.flatMap TableSpec.text) =
      ⟨specs.map TableSpec.table, []⟩ := by
    rw [DeclaredTables.ofText, DeclaredTables.collect, hreadings]
    congr 1
    · rw [List.filterMap_map, ← List.filterMap_eq_map]
      rfl
    · rw [List.flatMap_map, List.flatMap_eq_nil_iff]
      exact fun _ _ => rfl
  rw [DeclaredTables.ofSource_eq, String.toList_ofList, htext]
  exact mode.judge_nil _

/-- Two declarations, with a column named `export`, and with brackets in literals and in a
comment. -/
def sampleTables : List TableSpec :=
  [⟨"users", "app users", [⟨"export", "serial", "", [.primaryKey]⟩,
    ⟨"tags", "text", "\x7b enum: [\"a)\", 'b'] /* ( */ \x7d", [.array, .defaultTo "f(\"\x7d\")"]⟩]⟩,
   ⟨"posts", "posts", [⟨"author", "integer", "", [.notNull, .references "users" "export"]⟩]⟩]

theorem wellFormed_sampleTables : ∀ s ∈ sampleTables, s.WellFormed := by
  have hempty : IsArgumentText "".toList := ⟨IsEntryText.nil.isClosed, by decide⟩
  have harguments : IsArgumentText "\x7b enum: [\"a)\", 'b'] /* ( */ \x7d".toList :=
    ⟨isClosed_iff.2 (by cbv), by decide⟩
  have hdefault : (ModifierCall.defaultTo "f(\"\x7d\")").WellFormed :=
    ⟨⟨isClosed_iff.2 (by cbv), by decide⟩, by decide⟩
  intro s hs
  simp only [sampleTables, List.mem_cons, List.not_mem_nil, or_false] at hs
  rcases hs with rfl | rfl
  · refine ⟨by decide, by decide, by simp [isNameQuote], fun c hc => ?_⟩
    simp only [List.mem_cons, List.not_mem_nil, or_false] at hc
    rcases hc with rfl | rfl
    · exact ⟨by decide, by decide, hempty, List.forall_mem_singleton.2 trivial⟩
    · refine ⟨by decide, by decide, harguments, ?_⟩
      exact List.forall_mem_cons.2 ⟨trivial, List.forall_mem_singleton.2 hdefault⟩
  · refine ⟨by decide, by decide, by simp [isNameQuote], List.forall_mem_singleton.2 ?_⟩
    refine ⟨by decide, by decide, hempty, ?_⟩
    exact List.forall_mem_cons.2 ⟨trivial, List.forall_mem_singleton.2 ⟨by decide, by decide⟩⟩

theorem ofSource_declarations_sample :
    (∀ s ∈ sampleTables, s.WellFormed) ∧
      DeclaredTables.ofSource .strict (String.ofList (sampleTables.flatMap TableSpec.text)) =
        .ok ⟨sampleTables.map TableSpec.table, []⟩ :=
  ⟨wellFormed_sampleTables, ofSource_declarations .strict wellFormed_sampleTables⟩

end SchemaForge.Declaration
