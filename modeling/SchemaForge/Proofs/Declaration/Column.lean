import SchemaForge.Proofs.Declaration.EntryText
import SchemaForge.Proofs.Declaration.Pattern

/-!
# Columns read back

A column is read from its entry without comments.  Behind the builder's arguments the calls of its
modifiers are searched for by their beginnings; such a beginning has no closing parenthesis, so it
cannot reach from one call into the next, and inside an argument there is none.

## Main definitions

* `ModifierCall.marker` — the beginning that a modifier is found by.
* `ColumnSpec.bareText` — an entry as it is read.

## Main results

* `hasCall_modifiers` — exactly the modifiers that were written are found.
* `reference?_modifiers` — the reference that is read is the first that was written.
* `ColumnSpec.WellFormed.columnOf?_eq` — **the entry of a column is read as the column.**
-/

namespace SchemaForge.Declaration

open Text

/-! ### Beginnings of calls -/

section

variable {name : List Char} {c : Call}

/-- The beginning of another call does not start inside a name. -/
theorem name_eq_of_isInfix (hname : '(' ∉ name) (hc : '(' ∉ c.name) (hdot : '.' ∉ c.name)
    (hargument : ¬ callHead name <:+: c.argument)
    (h : callHead name <:+: callHead c.name ++ c.argument) : c.name = name := by
  rw [callHead, callHead, List.cons_append, List.append_assoc, List.infix_cons_iff] at h
  rcases h with ⟨rest, hrest⟩ | h
  · have htext : name ++ '(' :: rest = c.name ++ '(' :: c.argument := by
      simpa using hrest
    exact (eq_of_append_cons_eq hname hc htext).symm
  · rw [← List.append_assoc] at h
    refine absurd (isInfix_of_isInfix_append (fun d hd => ?_) (List.cons_ne_nil _ _) h) hargument
    rintro ⟨rfl⟩
    rcases List.mem_append.1 hd with hd | hd
    · exact hdot hd
    · exact absurd (List.mem_singleton.1 hd) (by decide)

theorem callsText_cons (c : Call) (calls : List Call) :
    callsText (c :: calls) = (callHead c.name ++ c.argument) ++ ')' :: callsText calls := by
  simp [callsText, Call.text]

/-- The beginning of a call is found among calls exactly when there is one of that name, unless it
stands in an argument. -/
theorem isInfix_callsText_iff (hname : ∀ d ∈ name, d ≠ '(' ∧ d ≠ ')') {calls : List Call}
    (hcalls : ∀ c ∈ calls, '(' ∉ c.name ∧ '.' ∉ c.name ∧ ¬ callHead name <:+: c.argument) :
    callHead name <:+: callsText calls ↔ ∃ c ∈ calls, c.name = name := by
  -- a call ends in a parenthesis, where no beginning of a call goes on
  have hclose : ')' ∉ callHead name := by
    intro hmem
    rcases List.mem_cons.1 hmem with h | hmem
    · exact absurd h (by decide)
    rcases List.mem_append.1 hmem with hmem | hmem
    · exact (hname _ hmem).2 rfl
    · exact absurd (List.mem_singleton.1 hmem) (by decide)
  constructor
  · intro h
    induction calls with
    | nil => simp [callsText, callHead] at h
    | cons c calls ih =>
      obtain ⟨hopen, hdot, hargument⟩ := hcalls c (List.mem_cons_self ..)
      rw [callsText_cons] at h
      rcases isInfix_append_cons hclose h with h | h
      · have hsame := name_eq_of_isInfix (fun hmem => (hname _ hmem).1 rfl) hopen hdot hargument h
        exact ⟨c, List.mem_cons_self .., hsame⟩
      · obtain ⟨d, hd, hsame⟩ := ih (fun d hd => hcalls d (List.mem_cons_of_mem _ hd)) h
        exact ⟨d, List.mem_cons_of_mem _ hd, hsame⟩
  · rintro ⟨c, hc, rfl⟩
    have htext : c.text <:+: callsText calls := by
      rw [callsText, List.flatMap]
      exact List.infix_of_mem_flatten (List.mem_map_of_mem hc)
    exact (List.prefix_append ..).isInfix.trans htext

end

/-! ### Markers -/

/-- The beginning that a modifier is found by. -/
def ModifierCall.marker (m : ModifierCall) : String :=
  "." ++ m.method ++ "("

theorem ModifierCall.toList_marker (m : ModifierCall) : m.marker.toList = callHead m.call.name := by
  simp [marker, callHead, call]

/-- The methods whose calls are searched for. -/
def markedMethods : List String :=
  ["primaryKey", "notNull", "unique", "array", "references", "default", "defaultNow",
    "defaultRandom", "$default", "$defaultFn", "generatedAlwaysAsIdentity",
    "generatedByDefaultAsIdentity"]

theorem exists_method_of_mem_markers {marker : String} (h : marker ∈ markers) :
    ∃ method ∈ markedMethods, marker = "." ++ method ++ "(" := by
  have hmarkers : markers = markedMethods.map fun method => "." ++ method ++ "(" := by decide
  rw [hmarkers] at h
  obtain ⟨method, hmethod, rfl⟩ := List.mem_map.1 h
  exact ⟨method, hmethod, rfl⟩

/-- A marker is the beginning of a call, without a space. -/
theorem exists_callHead_of_mem_markers {marker : String} (h : marker ∈ markers) :
    ∃ name, marker.toList = callHead name ∧ (∀ d ∈ name, d ≠ '(' ∧ d ≠ ')') ∧
      ' ' ∉ marker.toList := by
  have hplain : ∀ method ∈ markedMethods, ∀ d ∈ method.toList, d ≠ '(' ∧ d ≠ ')' ∧ d ≠ ' ' := by
    simp [markedMethods]
  obtain ⟨method, hmethod, rfl⟩ := exists_method_of_mem_markers h
  have htext : ("." ++ method ++ "(").toList = callHead method.toList := by simp [callHead]
  refine ⟨method.toList, htext, fun d hd => ⟨(hplain method hmethod d hd).1,
    (hplain method hmethod d hd).2.1⟩, ?_⟩
  rw [htext]
  intro hmem
  rcases List.mem_cons.1 hmem with h | hmem
  · exact absurd h (by decide)
  rcases List.mem_append.1 hmem with hmem | hmem
  · exact (hplain method hmethod _ hmem).2.2 rfl
  · exact absurd (List.mem_singleton.1 hmem) (by decide)

/-- No marker stands in the argument of a modifier, comments or not. -/
theorem ModifierCall.WellFormed.not_isInfix_argument {m : ModifierCall} (h : m.WellFormed)
    {marker : String} (hmarker : marker ∈ markers) :
    ¬ marker.toList <:+: withoutComments m.argument := by
  obtain ⟨name, hname, -, hspace⟩ := exists_callHead_of_mem_markers hmarker
  intro hinfix
  have hinfix := isInfix_of_isInfix_withoutComments hspace hinfix
  have hne : ¬ marker.toList <:+: [] := by
    rw [hname]
    simp [callHead]
  cases m with
  | defaultTo argument => exact h.2 marker hmarker hinfix
  | defaultFn argument => exact h.2 marker hmarker hinfix
  | references table column =>
    -- the marker ends in a parenthesis, and the only one of the function is its first character
    rw [hname] at hinfix
    have hbehind := isInfix_of_isInfix_cons (by simp) (List.cons_ne_nil _ _) hinfix
    have hopen : '(' ∈ callHead name := by simp [callHead]
    have hmem := hbehind.subset hopen
    simp only [List.mem_cons, List.mem_append, Char.reduceEq, false_or] at hmem
    rcases hmem with hmem | hmem
    · exact h.1.not_mem (by decide) hmem
    · exact h.2.not_mem (by decide) hmem
  | _ => exact hne hinfix

theorem ModifierCall.not_mem_call_name (m : ModifierCall) :
    '(' ∉ m.call.name ∧ '.' ∉ m.call.name := by
  cases m <;> simp only [call, method] <;> decide

/-- The calls of modifiers as they are read. -/
def modifiersText (modifiers : List ModifierCall) : List Char :=
  callsText (modifiers.map fun m => m.call.bare)

/-- **Exactly the modifiers that were written are found.** -/
theorem hasCall_modifiers {modifiers : List ModifierCall} (h : ∀ m ∈ modifiers, m.WellFormed)
    {marker : String} (hmarker : marker ∈ markers) :
    hasCall (modifiersText modifiers) marker = true ↔ ∃ m ∈ modifiers, m.marker = marker := by
  obtain ⟨name, hname, hplain, -⟩ := exists_callHead_of_mem_markers hmarker
  have hcalls : ∀ c ∈ modifiers.map fun m => m.call.bare,
      '(' ∉ c.name ∧ '.' ∉ c.name ∧ ¬ callHead name <:+: c.argument := by
    intro c hc
    obtain ⟨m, hm, rfl⟩ := List.mem_map.1 hc
    have hargument := (h m hm).not_isInfix_argument hmarker
    rw [hname] at hargument
    exact ⟨m.not_mem_call_name.1, m.not_mem_call_name.2, hargument⟩
  -- a modifier has the marker when its method has the name
  have hsame : ∀ m : ModifierCall, m.call.bare.name = name ↔ m.marker = marker := by
    intro m
    rw [← String.toList_inj, m.toList_marker, hname, callHead, callHead]
    simp [Call.bare]
  rw [hasCall, occursIn_eq_true_iff, modifiersText, hname, isInfix_callsText_iff hplain hcalls]
  constructor
  · rintro ⟨c, hc, hcname⟩
    obtain ⟨m, hm, rfl⟩ := List.mem_map.1 hc
    exact ⟨m, hm, (hsame m).1 hcname⟩
  · rintro ⟨m, hm, hmarked⟩
    exact ⟨_, List.mem_map_of_mem hm, (hsame m).2 hmarked⟩

/-! ### References -/

/-- No reference is found in a modifier of another kind. -/
theorem referenceHere?_eq_none {m : ModifierCall} (h : m.WellFormed)
    (hm : m.marker ≠ ".references(") (rest : List Char) :
    ∀ s, s ≠ [] → s <:+ m.call.bare.text → referenceHere? (s ++ rest) = none := by
  have hmarker : ".references(" ∈ markers := by decide
  have hhead : ".references(".toList = callHead "references".toList := rfl
  have hclose : ')' ∉ ".references(".toList := by decide
  have hargument := h.not_isInfix_argument hmarker
  intro s hne hs
  suffices hlead : ¬ ".references(".toList <+: s ++ rest by
    rw [referenceHere?, after?_eq_none hlead]
    rfl
  intro hlead
  -- the text ends in a closing parenthesis, which the marker does not have
  have htext : m.call.bare.text =
      (callHead m.call.name ++ withoutComments m.argument) ++ [')'] := by
    simp [Call.text, Call.bare, ModifierCall.call]
  rw [htext] at hs
  rcases List.suffix_concat_iff.1 hs with rfl | ⟨front, rfl, hfront⟩
  · exact hne rfl
  rw [List.append_assoc, List.singleton_append] at hlead
  have hinfix := (isPrefix_append_cons hclose hlead).isInfix.trans hfront.isInfix
  rw [hhead] at hinfix hargument
  have hsame := name_eq_of_isInfix (c := m.call.bare) (by decide) m.not_mem_call_name.1
    m.not_mem_call_name.2 hargument hinfix
  refine hm (String.toList_inj.1 ?_)
  rw [m.toList_marker, hhead]
  exact congrArg callHead hsame

/-- The function that a reference is given as has no comment. -/
theorem bare_call_references {table column : String}
    (h : (ModifierCall.references table column).WellFormed) :
    (ModifierCall.references table column).call.bare =
      (ModifierCall.references table column).call := by
  have hplain : ∀ {word : String}, IsWord word.toList → IsPlain word.toList := fun hword =>
    isPlain_of_isOuter fun d hd => isOuter_of_isWordChar (hword.isWordChar d hd)
  have hall : IsPlain (ModifierCall.references table column).argument := by
    intro d hd
    simp only [ModifierCall.argument, List.mem_cons, List.mem_append] at hd
    rcases hd with rfl | rfl | rfl | rfl | rfl | rfl | hd | rfl | hd
    iterate 6 decide
    · exact hplain h.1 d hd
    · decide
    · exact hplain h.2 d hd
  have hargument := withoutComments_plain_append hall []
  rw [withoutComments_nil, List.append_nil] at hargument
  rw [Call.bare, ModifierCall.call, hargument]

/-- **The reference that is read is the first that was written.** -/
theorem reference?_modifiers {modifiers : List ModifierCall}
    (h : ∀ m ∈ modifiers, m.WellFormed) :
    reference? (modifiersText modifiers) =
      (modifiers.findSome? ModifierCall.foreignKey?).map fun key =>
        (key.table.toList, key.column.toList) := by
  induction modifiers with
  | nil => rfl
  | cons m modifiers ih =>
    have hm := h m (List.mem_cons_self ..)
    have hrest := ih fun d hd => h d (List.mem_cons_of_mem _ hd)
    have htext : modifiersText (m :: modifiers) = m.call.bare.text ++ modifiersText modifiers := rfl
    -- a call of another kind is passed over on both sides
    have hskip : m.marker ≠ ".references(" → m.foreignKey? = none →
        reference? (modifiersText (m :: modifiers)) =
          ((m :: modifiers).findSome? ModifierCall.foreignKey?).map fun key =>
            (key.table.toList, key.column.toList) := by
      intro hmarker hnone
      rw [htext, reference?, firstSome?_append _ (referenceHere?_eq_none hm hmarker _),
        List.findSome?_cons, hnone]
      exact hrest
    cases m with
    | references table column =>
      have hhere := referenceHere?_references hm.1 hm.2 (modifiersText modifiers)
      rw [htext, bare_call_references hm, reference?, firstSome?_of_eq_some hhere]
      rfl
    | _ => exact hskip (by simp only [ModifierCall.marker, ModifierCall.method]; decide) rfl

/-! ### Columns -/

/-- The modifiers that are flags of their columns. -/
def flags : List ModifierCall :=
  [.primaryKey, .notNull, .unique, .array]

theorem eq_of_marker_eq {m m' : ModifierCall} (hm : m ∈ flags) (h : m'.marker = m.marker) :
    m' = m := by
  simp only [flags, List.mem_cons, List.not_mem_nil, or_false] at hm
  rcases hm with rfl | rfl | rfl | rfl <;> cases m' <;>
    simp_all [ModifierCall.marker, ModifierCall.method]

/-- A flag is found when it was written. -/
theorem hasCall_flag {modifiers : List ModifierCall} (h : ∀ m ∈ modifiers, m.WellFormed)
    {m : ModifierCall} (hm : m ∈ flags) {marker : String} (hmarker : m.marker = marker) :
    hasCall (modifiersText modifiers) marker = decide (m ∈ modifiers) := by
  have hmarkers : ∀ m ∈ flags, m.marker ∈ markers := by decide
  subst hmarker
  rw [Bool.eq_iff_iff, hasCall_modifiers h (hmarkers m hm), decide_eq_true_iff]
  constructor
  · rintro ⟨m', hm', hsame⟩
    rwa [← eq_of_marker_eq hm hsame]
  · intro hmem
    exact ⟨m, hmem, rfl⟩

/-- A modifier has one of the markers of defaults exactly when it gives a default. -/
theorem any_hasCall_defaultMarkers {modifiers : List ModifierCall}
    (h : ∀ m ∈ modifiers, m.WellFormed) :
    defaultMarkers.any (hasCall (modifiersText modifiers)) =
      modifiers.any ModifierCall.isDefault := by
  have hdefault : ∀ m : ModifierCall, m.marker ∈ defaultMarkers ↔ m.isDefault = true := by
    intro m
    cases m <;> simp only [ModifierCall.marker, ModifierCall.method, ModifierCall.isDefault] <;>
      decide
  rw [Bool.eq_iff_iff, List.any_eq_true, List.any_eq_true]
  constructor
  · rintro ⟨marker, hmarker, hcall⟩
    obtain ⟨m, hm, rfl⟩ :=
      (hasCall_modifiers h (List.mem_append_right _ hmarker)).1 hcall
    exact ⟨m, hm, (hdefault m).1 hmarker⟩
  · rintro ⟨m, hm, hisDefault⟩
    have hmarker := (hdefault m).2 hisDefault
    exact ⟨m.marker, hmarker,
      (hasCall_modifiers h (List.mem_append_right _ hmarker)).2 ⟨m, hm, rfl⟩⟩

/-- The head of an entry, and the search past the arguments of its builder. -/
theorem columnOf?_entryText {name builder arguments : List Char} (hname : IsWord name)
    (hbuilder : IsWord builder) (harguments : IsClosed arguments) (calls : List Call) :
    columnOf? ['t'] (ColumnSpec.entryText name (⟨builder, arguments⟩ :: calls)) =
      some (columnWith name builder (callsText calls)) := by
  have hhead := columnHead?_entryText hname hbuilder (arguments ++ ')' :: callsText calls)
  have htext : ColumnSpec.entryText name (⟨builder, arguments⟩ :: calls) =
      name ++ (": t".toList ++ (callHead builder ++ (arguments ++ ')' :: callsText calls))) := by
    simp [ColumnSpec.entryText, callsText_cons]
  have hclose := splitClosing_append harguments.ended harguments.balanced 0
    (.char ')' :: chunks (callsText calls))
  have hchunks : chunks (arguments ++ ')' :: callsText calls) =
      chunks arguments ++ .char ')' :: chunks (callsText calls) := by
    rw [chunks_append harguments.ended (breaksSlash_parenthesis _), chunks_cons,
      chunk_eq_char (by decide) (.inl (by decide))]
  -- the head, the check of its parameter, and the search for the end of the arguments
  rw [htext, columnOf?, hhead]
  refine Option.bind_eq_some_iff.2 ⟨_, rfl, ?_⟩
  refine Option.bind_eq_some_iff.2 ⟨(), if_pos rfl, ?_⟩
  dsimp only
  rw [hchunks, hclose]
  refine Option.bind_eq_some_iff.2 ⟨(chunks arguments ++ [], chunks (callsText calls)), rfl, ?_⟩
  dsimp only
  rw [chunks_flatMap_text]
  rfl

/-- A column as its entry says, without a default that only its type implies. -/
def ColumnSpec.explicitColumn (s : ColumnSpec) : Column :=
  { s.column with hasDefault := s.modifiers.any ModifierCall.isDefault }

/-- The entry of a column as it is read. -/
def ColumnSpec.bareText (s : ColumnSpec) : List Char :=
  entryText s.name.toList (s.calls.map Call.bare)

/-- **The entry of a column is read as the column**, but for a default that its type implies. -/
theorem ColumnSpec.WellFormed.columnOf?_eq {s : ColumnSpec} (h : s.WellFormed) :
    columnOf? ['t'] s.bareText = some s.explicitColumn := by
  have hcalls : s.calls.map Call.bare =
      ⟨s.builder.toList, withoutComments s.arguments.toList⟩ ::
        s.modifiers.map fun m => m.call.bare := by
    simp [ColumnSpec.calls, Call.bare]
  have hreferences :
      (columnWith s.name.toList s.builder.toList (modifiersText s.modifiers)).references =
        s.modifiers.findSome? ModifierCall.foreignKey? := by
    rw [columnWith]
    dsimp only
    rw [reference?_modifiers h.modifiers, Option.map_map]
    simp [Function.comp_def]
  have harray : hasCall (modifiersText s.modifiers) ".array(" = decide (.array ∈ s.modifiers) :=
    hasCall_flag h.modifiers (by decide) (by decide)
  have hnotNull : hasCall (modifiersText s.modifiers) ".notNull(" =
      decide (.notNull ∈ s.modifiers) := hasCall_flag h.modifiers (by decide) (by decide)
  have hprimaryKey : hasCall (modifiersText s.modifiers) ".primaryKey(" =
      decide (.primaryKey ∈ s.modifiers) := hasCall_flag h.modifiers (by decide) (by decide)
  have hunique : hasCall (modifiersText s.modifiers) ".unique(" =
      decide (.unique ∈ s.modifiers) := hasCall_flag h.modifiers (by decide) (by decide)
  rw [columnWith] at hreferences
  dsimp only at hreferences
  rw [bareText, hcalls,
    columnOf?_entryText h.name h.builder h.arguments.closed.withoutComments, columnWith,
    ← modifiersText, harray, hnotNull, hprimaryKey, hunique, any_hasCall_defaultMarkers h.modifiers,
    hreferences]
  simp [explicitColumn, column]

end SchemaForge.Declaration
