import SchemaForge.Proofs.Declaration.Spelling

/-!
# Fixed parts read back

The header of a declaration, the head of a column and a reference, read where they were written.
Each is read part by part; what follows a word or a name is never a character of it.

## Main results

* `run?_append`, `word?_append` — a run of characters, and a word, in front of something else.
* `columnHead?_entryText` — the head of a column.
* `referenceHere?_references` — a reference.
* `header?_headerText` — the header of a declaration.
* `header?_eq_none` — where no header can be.
-/

namespace SchemaForge.Declaration

open Text

/-! ### Parts -/

section

variable {belongs : Char → Bool} {found rest word : List Char} {c : Char}

theorem run?_append (hne : found ≠ []) (hfound : ∀ d ∈ found, belongs d = true)
    (hrest : ∀ d ∈ rest.head?, belongs d = false) :
    run? belongs (found ++ rest) = some (found, rest) := by
  have hstop : rest.takeWhile belongs = [] ∧ rest.dropWhile belongs = rest := by
    cases rest with
    | nil => exact ⟨rfl, rfl⟩
    | cons d rest => simp [hrest d rfl]
  rw [run?, List.takeWhile_append_of_pos hfound, List.dropWhile_append_of_pos hfound, hstop.1,
    hstop.2, List.append_nil]
  cases found with
  | nil => exact absurd rfl hne
  | cons d found => rfl

theorem word?_append (hword : IsWord word) (hc : isWordChar c = false) (rest : List Char) :
    word? (word ++ c :: rest) = some (word, c :: rest) :=
  run?_append hword.ne_nil hword.isWordChar (by simpa using hc)

theorem skipBlanks_cons (hc : isBlank c = false) (rest : List Char) :
    skipBlanks (c :: rest) = c :: rest := by
  rw [skipBlanks, List.dropWhile_cons, hc]
  rfl

theorem skipBlanks_space (rest : List Char) : skipBlanks (' ' :: rest) = skipBlanks rest := rfl

theorem skipBlanks_word (hword : IsWord word) (rest : List Char) :
    skipBlanks (word ++ rest) = word ++ rest := by
  have hchars := hword.isWordChar
  obtain ⟨c, cs, rfl, -⟩ := hword
  exact skipBlanks_cons (isBlank_eq_false_of_isWordChar (hchars c (List.mem_cons_self ..))) _

theorem skipOne_word (hbelongs : ∀ d, isWordChar d = true → belongs d = false)
    (hword : IsWord word) (rest : List Char) : skipOne belongs (word ++ rest) = word ++ rest := by
  have hchars := hword.isWordChar
  obtain ⟨c, cs, rfl, -⟩ := hword
  have hc := hbelongs c (hchars c (List.mem_cons_self ..))
  rw [List.cons_append, skipOne, if_neg (by simp [hc])]

theorem isWord_t : IsWord ['t'] :=
  ⟨'t', [], rfl, by decide, by simp⟩

end

/-! ### The head of a column -/

theorem isColumnQuote_eq_false_of_isWordChar {c : Char} (h : isWordChar c = true) :
    isColumnQuote c = false := by
  simp only [isColumnQuote, Bool.or_eq_false_iff, beq_eq_false_iff_ne]
  exact ⟨ne_of_isWordChar h (by decide), ne_of_isWordChar h (by decide)⟩

theorem columnHead?_entryText {name builder : List Char} (hname : IsWord name)
    (hbuilder : IsWord builder) (rest : List Char) :
    columnHead? (name ++ (": t".toList ++ (callHead builder ++ rest))) =
      some ⟨name, ['t'], builder, rest⟩ := by
  have hskip := skipOne_word (fun _ h => isColumnQuote_eq_false_of_isWordChar h) hname
    (": t".toList ++ (callHead builder ++ rest))
  have hword : word? (name ++ (": t".toList ++ (callHead builder ++ rest))) =
      some (name, ": t".toList ++ (callHead builder ++ rest)) :=
    word?_append hname (by decide) _
  have hparam : word? (['t'] ++ '.' :: (builder ++ ['('] ++ rest)) =
      some (['t'], '.' :: (builder ++ ['('] ++ rest)) := word?_append isWord_t (by decide) _
  have hcall : word? (skipBlanks (builder ++ ['('] ++ rest)) = some (builder, '(' :: rest) := by
    rw [List.append_assoc, skipBlanks_word hbuilder]
    exact word?_append hbuilder (by decide) rest
  rw [columnHead?, hskip]
  refine Option.bind_eq_some_iff.2 ⟨_, hword, ?_⟩
  refine Option.bind_eq_some_iff.2 ⟨' ' :: (['t'] ++ '.' :: (builder ++ ['('] ++ rest)), rfl, ?_⟩
  refine Option.bind_eq_some_iff.2 ⟨_, hparam, ?_⟩
  refine Option.bind_eq_some_iff.2 ⟨builder ++ ['('] ++ rest, rfl, ?_⟩
  refine Option.bind_eq_some_iff.2 ⟨_, hcall, ?_⟩
  exact Option.bind_eq_some_iff.2 ⟨rest, rfl, rfl⟩

/-! ### References -/

/-- The reference at the head of the call that a reference is written as. -/
theorem referenceHere?_references {table column : String} (htable : IsWord table.toList)
    (hcolumn : IsWord column.toList) (rest : List Char) :
    referenceHere? ((ModifierCall.references table column).call.text ++ rest) =
      some (table.toList, column.toList) := by
  have htable' : word? (skipBlanks
      (' ' :: (table.toList ++ '.' :: (column.toList ++ ')' :: rest)))) =
      some (table.toList, '.' :: (column.toList ++ ')' :: rest)) := by
    rw [skipBlanks_space, skipBlanks_word htable]
    exact word?_append htable (by decide) _
  have hcolumn' : word? (skipBlanks (column.toList ++ ')' :: rest)) =
      some (column.toList, ')' :: rest) := by
    rw [skipBlanks_word hcolumn]
    exact word?_append hcolumn (by decide) _
  have htext : (ModifierCall.references table column).call.text ++ rest =
      ".references(".toList ++ ("() => ".toList ++
        (table.toList ++ '.' :: (column.toList ++ ')' :: rest))) := by
    have hhead : callHead "references".toList = ".references(".toList := rfl
    rw [Call.text, ModifierCall.call, ModifierCall.method, hhead]
    simp [ModifierCall.argument]
  -- the marker, the empty parentheses and the arrow are read as they stand
  rw [htext, referenceHere?]
  refine Option.bind_eq_some_iff.2 ⟨_, after?_append _ _, ?_⟩
  refine Option.bind_eq_some_iff.2 ⟨_, rfl, ?_⟩
  refine Option.bind_eq_some_iff.2 ⟨_, rfl, ?_⟩
  refine Option.bind_eq_some_iff.2 ⟨_, rfl, ?_⟩
  refine Option.bind_eq_some_iff.2 ⟨_, rfl, ?_⟩
  refine Option.bind_eq_some_iff.2 ⟨_, htable', ?_⟩
  refine Option.bind_eq_some_iff.2 ⟨_, rfl, ?_⟩
  exact Option.bind_eq_some_iff.2 ⟨_, hcolumn', rfl⟩

/-! ### Headers -/

theorem headerText_append_eq (s : TableSpec) (rest : List Char) :
    s.headerText ++ rest =
      "export".toList ++ ' ' :: ("const".toList ++ ' ' :: (s.binding.toList ++
        ' ' :: '=' :: ' ' :: ("pgTable".toList ++ '(' :: '"' :: (s.tableName.toList ++
          '"' :: (", (t) => (\x7b".toList ++ rest))))) := by
  have hexport : "export const ".toList = "export".toList ++ ' ' :: ("const".toList ++ [' ']) := rfl
  have hcall : " = pgTable(\"".toList = ' ' :: '=' :: ' ' :: ("pgTable".toList ++ ['(', '"']) := rfl
  have hparam : "\", (t) => (\x7b".toList = '"' :: ", (t) => (\x7b".toList := rfl
  have hheader : s.headerText = "export const ".toList ++ (s.binding.toList ++
      (" = pgTable(\"".toList ++ (s.tableName.toList ++ "\", (t) => (\x7b".toList))) := rfl
  rw [hheader, hexport, hcall, hparam]
  simp only [List.append_assoc, List.cons_append, List.nil_append]

/-- **A header is read where it was written.** -/
theorem header?_headerText {s : TableSpec} (h : s.WellFormed) (rest : List Char) :
    header? (s.headerText ++ rest) =
      some ⟨s.binding.toList, s.tableName.toList, ['t'], rest⟩ := by
  have hbinding : ∀ more, word? (s.binding.toList ++ ' ' :: more) =
      some (s.binding.toList, ' ' :: more) := word?_append h.binding (by decide)
  have hskip : ∀ more, skipBlank? (' ' :: (s.binding.toList ++ more)) =
      some (s.binding.toList ++ more) := by
    intro more
    rw [skipBlank?, skipBlanks_word h.binding]
    rfl
  have hname : ∀ more, run? (fun c => !isNameQuote c) (s.tableName.toList ++ '"' :: more) =
      some (s.tableName.toList, '"' :: more) := by
    intro more
    refine run?_append h.named (fun c hc => ?_) (by simp; decide)
    rw [h.unquoted c hc]
    rfl
  -- the builders go by the one-letter name, in parentheses
  have hparam : word? (['t'] ++ ')' :: (" => (\x7b".toList ++ rest)) =
      some (['t'], ')' :: (" => (\x7b".toList ++ rest)) := word?_append isWord_t (by decide) _
  have hparam' : param? ('(' :: (['t'] ++ ')' :: (" => (\x7b".toList ++ rest))) =
      some (['t'], " => (\x7b".toList ++ rest) := by
    unfold param?
    exact Option.bind_eq_some_iff.2 ⟨_, hparam, rfl⟩
  rw [headerText_append_eq, header?]
  refine Option.bind_eq_some_iff.2 ⟨_, after?_append _ _, ?_⟩
  refine Option.bind_eq_some_iff.2 ⟨_, rfl, ?_⟩
  refine Option.bind_eq_some_iff.2 ⟨_, after?_append _ _, ?_⟩
  refine Option.bind_eq_some_iff.2 ⟨_, hskip _, ?_⟩
  refine Option.bind_eq_some_iff.2 ⟨_, hbinding _, ?_⟩
  refine Option.bind_eq_some_iff.2 ⟨_, rfl, ?_⟩
  refine Option.bind_eq_some_iff.2 ⟨_, rfl, ?_⟩
  refine Option.bind_eq_some_iff.2 ⟨_, rfl, ?_⟩
  refine Option.bind_eq_some_iff.2 ⟨_, rfl, ?_⟩
  -- the name of the table stops at the quote behind it
  refine Option.bind_eq_some_iff.2 ⟨_, hname _, ?_⟩
  refine Option.bind_eq_some_iff.2 ⟨_, rfl, ?_⟩
  refine Option.bind_eq_some_iff.2 ⟨_, rfl, ?_⟩
  refine Option.bind_eq_some_iff.2 ⟨_, hparam', ?_⟩
  refine Option.bind_eq_some_iff.2 ⟨_, rfl, ?_⟩
  refine Option.bind_eq_some_iff.2 ⟨_, rfl, ?_⟩
  exact Option.bind_eq_some_iff.2 ⟨_, rfl, rfl⟩

/-- A header needs a blank behind its first word. -/
theorem header?_eq_none {text : List Char}
    (h : ∀ b, isBlank b = true → ¬ "export".toList ++ [b] <+: text) : header? text = none := by
  rw [Option.eq_none_iff_forall_ne_some]
  intro header hheader
  obtain ⟨after, hafter, hheader⟩ := Option.bind_eq_some_iff.1 hheader
  obtain ⟨_, hblank, -⟩ := Option.bind_eq_some_iff.1 hheader
  cases after with
  | nil => cases hblank
  | cons b after =>
    rw [skipBlank?] at hblank
    split at hblank
    · next hb =>
      refine h b hb ⟨after, ?_⟩
      rw [List.append_assoc]
      exact append_of_after? hafter
    · cases hblank

end SchemaForge.Declaration
