import SchemaForge.Proofs.Declaration.Spelling

/-!
# Texts of entries

The entry of a column is a word, a colon, and calls.  Quotes, slashes, brackets and commas stand
only in the parentheses of the calls, where the text is closed; so the entry is closed itself, no
comma ends it early, and without its comments it is an entry of the same calls.

## Main definitions

* `IsEntryText` — a text whose commas all stand in brackets.
* `Call.WellFormed` — a call whose name is plain and whose argument is closed.

## Main results

* `IsEntryText.isClosed`, `IsEntryText.splitCommas_append` — how an entry is searched.
* `withoutComments_entryText` — how it is read.
-/

namespace SchemaForge.Declaration

open Text

/-! ### Texts without outer commas -/

/-- Characters that mean nothing to the search for brackets or commas. -/
def isOuter (c : Char) : Bool :=
  !isQuote c && c != '/' && !isOpening c && !isClosing c && c != ','

/-- A text whose quotes, slashes, brackets and commas all stand in parentheses. -/
inductive IsEntryText : List Char → Prop
  /-- Nothing. -/
  | nil : IsEntryText []
  /-- A character by itself. -/
  | char {c : Char} {rest : List Char} :
      isOuter c = true → IsEntryText rest → IsEntryText (c :: rest)
  /-- Closed text in parentheses. -/
  | bracketed {inside rest : List Char} :
      IsClosed inside → IsEntryText rest → IsEntryText ('(' :: (inside ++ ')' :: rest))

section

variable {c : Char} {text more inside rest : List Char}

theorem isOuter_of_isWordChar (h : isWordChar c = true) : isOuter c = true := by
  have hne := fun d hd => ne_of_isWordChar h (d := d) hd
  simp only [isOuter, isQuote, isOpening, isClosing, Bool.and_eq_true, Bool.not_eq_true',
    Bool.or_eq_false_iff, beq_eq_false_iff_ne, bne_iff_ne]
  refine ⟨⟨⟨⟨⟨⟨?_, ?_⟩, ?_⟩, ?_⟩, ⟨?_, ?_⟩, ?_⟩, ⟨?_, ?_⟩, ?_⟩, ?_⟩ <;> exact hne _ (by decide)

theorem isPlain_of_isOuter (h : ∀ c ∈ text, isOuter c = true) : IsPlain text := by
  intro c hc
  have hout := h c hc
  simp only [isOuter, Bool.and_eq_true, Bool.not_eq_true', bne_iff_ne] at hout
  exact ⟨hout.1.1.1.1, hout.1.1.1.2⟩

theorem depthBehind?_of_isOuter (h : isOuter c = true) (k : Nat) :
    (Chunk.char c).depthBehind? k = some k := by
  simp only [isOuter, Bool.and_eq_true, Bool.not_eq_true'] at h
  simp [Chunk.depthBehind?, h.1.1.2, h.1.2]

theorem chunks_cons_of_isOuter (h : isOuter c = true) (rest : List Char) :
    chunks (c :: rest) = .char c :: chunks rest :=
  chunks_plain_append (isPlain_of_isOuter fun d hd => by rwa [List.mem_singleton.1 hd]) rest

theorem breaksSlash_parenthesis (rest : List Char) : BreaksSlash (')' :: rest) :=
  breaksSlash_cons.2 (by decide)

/-- Closed text in parentheses is cut into chunks by itself. -/
theorem chunks_bracketed (h : IsClosed inside) (rest : List Char) :
    chunks ('(' :: (inside ++ ')' :: rest)) =
      .char '(' :: (chunks inside ++ .char ')' :: chunks rest) := by
  have hopen : IsPlain ['('] := by
    simp only [IsPlain, List.mem_singleton, forall_eq]
    decide
  have hclose : IsPlain [')'] := by
    simp only [IsPlain, List.mem_singleton, forall_eq]
    decide
  have houter := chunks_plain_append hopen (inside ++ ')' :: rest)
  rw [chunks_append h.ended (breaksSlash_parenthesis rest)] at houter
  have hinner := chunks_plain_append hclose rest
  rw [List.singleton_append] at hinner houter
  rw [houter, hinner]
  rfl

theorem IsEntryText.append (h : IsEntryText text) (hmore : IsEntryText more) :
    IsEntryText (text ++ more) := by
  induction h with
  | nil => exact hmore
  | char hc _ ih => exact .char hc ih
  | bracketed hinside _ ih =>
    rw [List.cons_append, List.append_assoc, List.cons_append]
    exact .bracketed hinside ih

theorem isEntryText_of_isOuter (h : ∀ c ∈ text, isOuter c = true) : IsEntryText text := by
  induction text with
  | nil => exact .nil
  | cons c text ih =>
    exact .char (h c (List.mem_cons_self ..)) (ih fun d hd => h d (List.mem_cons_of_mem _ hd))

theorem IsWord.isEntryText {word : List Char} (h : IsWord word) : IsEntryText word :=
  isEntryText_of_isOuter fun c hc => isOuter_of_isWordChar (h.isWordChar c hc)

/-- A text whose brackets are parentheses around closed text is closed. -/
theorem IsEntryText.isClosed (h : IsEntryText text) : IsClosed text := by
  induction h with
  | nil => exact ⟨by simp [AreEnded], by rw [chunks_nil]; rfl⟩
  | @char c rest hc _ ih =>
    refine ⟨?_, ?_⟩
    · rw [chunks_cons_of_isOuter hc]
      exact List.forall_mem_cons.2 ⟨rfl, ih.ended⟩
    · rw [chunks_cons_of_isOuter hc, depthThrough, depthBehind?_of_isOuter hc]
      exact ih.balanced
  | @bracketed inside rest hinside _ ih =>
    refine ⟨?_, ?_⟩
    · rw [chunks_bracketed hinside]
      refine List.forall_mem_cons.2 ⟨rfl, List.forall_mem_append.2 ⟨hinside.ended, ?_⟩⟩
      exact List.forall_mem_cons.2 ⟨rfl, ih.ended⟩
    · -- the depth inside is one more throughout
      have hinner := depthThrough_succ hinside.balanced
      rw [chunks_bracketed hinside, depthThrough]
      show depthThrough 1 _ = _
      rw [depthThrough_append hinner]
      exact ih.balanced

/-- No comma of the text ends a group. -/
theorem IsEntryText.splitCommas_append (h : IsEntryText text) (more : List Chunk) :
    splitCommas 0 (chunks text ++ more) =
      (chunks text).foldr consFirst (splitCommas 0 more) := by
  induction h with
  | nil => simp
  | @char c rest hc _ ih =>
    have hcomma : c ≠ ',' := by
      simp only [isOuter, Bool.and_eq_true, bne_iff_ne] at hc
      exact hc.2
    have hdepth := Chunk.depthAfter_of_depthBehind? (depthBehind?_of_isOuter hc 0) 0
    rw [chunks_cons_of_isOuter hc, List.cons_append, splitCommas, if_neg (by simp [hcomma]), hdepth,
      ih]
    rfl
  | @bracketed inside rest hinside _ ih =>
    have hinner := Declaration.splitCommas_append hinside.balanced 0
      (.char ')' :: (chunks rest ++ more))
    rw [chunks_bracketed hinside, List.cons_append, List.append_assoc, List.cons_append,
      splitCommas, if_neg (by simp), List.foldr_cons, List.foldr_append, List.foldr_cons, ← ih]
    refine congrArg _ (hinner.trans (congrArg (List.foldr consFirst · (chunks inside)) ?_))
    rw [splitCommas, if_neg (by simp)]
    rfl

end

/-! ### Calls -/

/-- The name of a call means nothing to any search, and its argument is closed. -/
structure Call.WellFormed (c : Call) : Prop where
  /-- The name is plain. -/
  name : ∀ d ∈ c.name, isOuter d = true
  /-- The argument is closed. -/
  argument : IsClosed c.argument

/-- Calls that are written one after another, in front of the rest of an entry. -/
theorem text_append_eq (c : Call) (rest : List Char) :
    c.text ++ rest = ('.' :: c.name) ++ '(' :: (c.argument ++ ')' :: rest) := by
  simp [Call.text, callHead]

theorem Call.WellFormed.isOuter_name {c : Call} (h : c.WellFormed) :
    ∀ d ∈ '.' :: c.name, isOuter d = true :=
  List.forall_mem_cons.2 ⟨by decide, h.name⟩

theorem isEntryText_callsText {calls : List Call} (h : ∀ c ∈ calls, c.WellFormed) :
    IsEntryText (callsText calls) := by
  induction calls with
  | nil => exact .nil
  | cons c calls ih =>
    have hc := h c (List.mem_cons_self ..)
    have hcalls := ih fun d hd => h d (List.mem_cons_of_mem _ hd)
    rw [callsText, List.flatMap_cons, text_append_eq]
    exact (isEntryText_of_isOuter hc.isOuter_name).append (.bracketed hc.argument hcalls)

theorem isEntryText_entryText {name : List Char} (hname : IsWord name) {calls : List Call}
    (h : ∀ c ∈ calls, c.WellFormed) : IsEntryText (ColumnSpec.entryText name calls) := by
  have hmark : IsEntryText ": t".toList := isEntryText_of_isOuter (List.all_eq_true.1 (by decide))
  exact hname.isEntryText.append (hmark.append (isEntryText_callsText h))

theorem withoutComments_callsText {calls : List Call} (h : ∀ c ∈ calls, c.WellFormed) :
    withoutComments (callsText calls) = callsText (calls.map Call.bare) := by
  induction calls with
  | nil => exact withoutComments_nil
  | cons c calls ih =>
    have hc := h c (List.mem_cons_self ..)
    have hinside : ∀ rest, withoutComments ('(' :: (c.argument ++ ')' :: rest)) =
        '(' :: (withoutComments c.argument ++ ')' :: withoutComments rest) := by
      intro rest
      rw [withoutComments, chunks_bracketed hc.argument]
      simp [withoutComments, Chunk.bareText, Chunk.text]
    have hcalls : withoutComments (calls.flatMap Call.text) =
        (calls.map Call.bare).flatMap Call.text := ih fun d hd => h d (List.mem_cons_of_mem _ hd)
    rw [callsText, callsText, List.map_cons, List.flatMap_cons, List.flatMap_cons, text_append_eq,
      text_append_eq, withoutComments_plain_append (isPlain_of_isOuter hc.isOuter_name), hinside,
      hcalls]
    rfl

/-- An entry loses its comments, and nothing else. -/
theorem withoutComments_entryText {name : List Char} (hname : IsWord name) {calls : List Call}
    (h : ∀ c ∈ calls, c.WellFormed) :
    withoutComments (ColumnSpec.entryText name calls) =
      ColumnSpec.entryText name (calls.map Call.bare) := by
  have hplain := isPlain_of_isOuter fun d hd => isOuter_of_isWordChar (hname.isWordChar d hd)
  have hmark : IsPlain ": t".toList := isPlain_of_isOuter (List.all_eq_true.1 (by decide))
  rw [ColumnSpec.entryText, withoutComments_plain_append hplain,
    withoutComments_plain_append hmark, withoutComments_callsText h]
  rfl

theorem ModifierCall.isOuter_call_name (m : ModifierCall) :
    ∀ d ∈ m.call.name, isOuter d = true := by
  cases m <;> simp only [call, method] <;> exact List.all_eq_true.1 (by decide)

theorem ModifierCall.WellFormed.call {m : ModifierCall} (h : m.WellFormed) :
    m.call.WellFormed := by
  have hempty : IsClosed [] := IsEntryText.nil.isClosed
  cases m with
  | defaultTo argument => exact ⟨isOuter_call_name _, h.1.closed⟩
  | defaultFn argument => exact ⟨isOuter_call_name _, h.1.closed⟩
  | references table column =>
    -- the function without parameters has a pair of parentheses of its own
    have harrow : IsEntryText " => ".toList :=
      isEntryText_of_isOuter (List.all_eq_true.1 (by decide))
    have hbody : IsEntryText (" => ".toList ++ (table.toList ++ '.' :: column.toList)) :=
      harrow.append (h.1.isEntryText.append (.char (by decide) h.2.isEntryText))
    exact ⟨isOuter_call_name _, (IsEntryText.bracketed hempty hbody).isClosed⟩
  | _ => exact ⟨isOuter_call_name _, hempty⟩

theorem ColumnSpec.WellFormed.calls {s : ColumnSpec} (h : s.WellFormed) :
    ∀ c ∈ s.calls, c.WellFormed := by
  refine List.forall_mem_cons.2 ⟨⟨fun d hd => ?_, h.arguments.closed⟩, fun c hc => ?_⟩
  · exact isOuter_of_isWordChar (h.builder.isWordChar d hd)
  · obtain ⟨m, hm, rfl⟩ := List.mem_map.1 hc
    exact (h.modifiers m hm).call

end SchemaForge.Declaration
