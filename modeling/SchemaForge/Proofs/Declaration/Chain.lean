import SchemaForge.Proofs.Declaration.Column
import SchemaForge.Proofs.Declaration.Part

/-!
# Columns with a chain of calls

A column may be written in many ways: with quotes around its name, with blanks and comments
between its parts, and with a chain of calls of any methods, each of which may have type arguments
in angle brackets.  However it is written, it is a row of parts; without its comments it is a
column of the same parts, and only its type arguments can have commas outside of brackets.

## Main definitions

* `ChainCall`, `ChainColumn` — a column with a chain of calls, as it may be written.
* `ChainCall.shows`, `ChainColumn.column` — the column that it declares.
* `ChainColumn.typeCommas` — the commas of its type arguments that are outside brackets.

## Main results

* `withoutComments_text` — an entry without its comments is an entry again.
* `length_splitCommas_text` — **an entry falls into one group more than its type arguments have
  outer commas.**
-/

namespace SchemaForge.Declaration

open Text

/-! ### Columns as they may be written -/

/-- Characters of a method. -/
def isMethodChar (c : Char) : Bool :=
  isWordChar c || c == '$'

/-- A call in a chain, which may have type arguments. -/
structure ChainCall where
  /-- What stands in front of the call. -/
  gap : List Char
  /-- The method. -/
  name : List Char
  /-- The text between the angle brackets, if there are any. -/
  types : Option (List Char)
  /-- The text between the parentheses. -/
  argument : List Char

namespace ChainCall

/-- Type arguments as they are written. -/
def typesText : Option (List Char) → List Char
  | none => []
  | some types => '<' :: (types ++ ['>'])

/-- The call as it is written, behind its gap. -/
def ownText (c : ChainCall) : List Char :=
  ('.' :: c.name) ++ (typesText c.types ++ '(' :: (c.argument ++ [')']))

/-- The call as a part of an entry. -/
def part (c : ChainCall) : Part :=
  ⟨c.gap, c.ownText⟩

/-- The call as it is read inside an entry. -/
def bare (c : ChainCall) : ChainCall where
  gap := withoutComments c.gap
  name := c.name
  types := c.types.map withoutComments
  argument := withoutComments c.argument

/-- The gap is one, the method is a name, and type arguments and argument are closed. -/
structure WellFormed (c : ChainCall) : Prop where
  /-- The gap is one. -/
  gap : IsGap c.gap
  /-- The method is a name. -/
  name : ∀ d ∈ c.name, isMethodChar d = true
  /-- The type arguments are closed. -/
  types : ∀ types ∈ c.types, IsClosed types
  /-- The argument is closed. -/
  argument : IsClosed c.argument

/-- Whether a method is called: by this call, which then has no type arguments, or by what is
spelled in its type arguments or its argument. -/
def shows (method : List Char) (c : ChainCall) : Bool :=
  (c.types.isNone && c.name == method) || c.types.any (occursIn (callHead method)) ||
    occursIn (callHead method) c.argument

end ChainCall

/-- The text of a chain of calls. -/
def chainText (chain : List ChainCall) : List Char :=
  partsText (chain.map ChainCall.part)

/-- A column with a chain of calls, as it may be written. -/
structure ChainColumn where
  /-- The quote around the name, if there is one. -/
  quote : Option Char
  /-- The name of the column. -/
  name : List Char
  /-- What stands in front of the colon. -/
  beforeColon : List Char
  /-- What stands in front of the builders. -/
  beforeParam : List Char
  /-- The name of the builders. -/
  param : List Char
  /-- What stands in front of the dot. -/
  beforeDot : List Char
  /-- What stands in front of the builder. -/
  beforeBuilder : List Char
  /-- The builder. -/
  builder : List Char
  /-- What stands in front of the builder's parentheses. -/
  beforeArguments : List Char
  /-- The text between them. -/
  arguments : List Char
  /-- The calls behind them. -/
  chain : List ChainCall

namespace ChainColumn

/-- The parts of the entry. -/
def parts (s : ChainColumn) : List Part :=
  [⟨[], s.quote.toList ++ (s.name ++ s.quote.toList)⟩, ⟨s.beforeColon, [':']⟩,
    ⟨s.beforeParam, s.param⟩, ⟨s.beforeDot, ['.']⟩, ⟨s.beforeBuilder, s.builder⟩,
    ⟨s.beforeArguments, '(' :: (s.arguments ++ [')'])⟩] ++ s.chain.map ChainCall.part

/-- The entry as it is written. -/
def text (s : ChainColumn) : List Char :=
  partsText s.parts

/-- The entry as it is read. -/
def bare (s : ChainColumn) : ChainColumn where
  quote := s.quote
  name := s.name
  beforeColon := withoutComments s.beforeColon
  beforeParam := withoutComments s.beforeParam
  param := s.param
  beforeDot := withoutComments s.beforeDot
  beforeBuilder := withoutComments s.beforeBuilder
  builder := s.builder
  beforeArguments := withoutComments s.beforeArguments
  arguments := withoutComments s.arguments
  chain := s.chain.map ChainCall.bare

/-- Whether a method is called behind the builder. -/
def shows (s : ChainColumn) (method : String) : Bool :=
  s.chain.any (ChainCall.shows method.toList)

/-- The methods that make the database supply a missing value. -/
def defaultMethods : List String :=
  ["default", "defaultNow", "defaultRandom", "$default", "$defaultFn",
    "generatedAlwaysAsIdentity", "generatedByDefaultAsIdentity"]

/-- The column that the entry declares: every flag is that of the methods called in the whole
chain. -/
def column (s : ChainColumn) : Column where
  name := String.ofList s.name
  typeName := String.ofList s.builder
  isArray := s.shows "array"
  isNotNull := s.shows "notNull"
  hasDefault := defaultMethods.any s.shows
  isPrimaryKey := s.shows "primaryKey"
  isUnique := s.shows "unique"
  references := (reference? (chainText s.chain)).map fun (table, column) =>
    ⟨String.ofList table, String.ofList column⟩

end ChainColumn

/-- Characters of words, of which there is one. -/
def IsFreeWord (text : List Char) : Prop :=
  text ≠ [] ∧ ∀ c ∈ text, isWordChar c = true

theorem IsWord.isFreeWord {word : List Char} (h : IsWord word) : IsFreeWord word :=
  ⟨h.ne_nil, h.isWordChar⟩

/-- The names are words, the gaps are gaps, and all arguments are closed. -/
structure ChainColumn.WellFormed (s : ChainColumn) : Prop where
  /-- The quote is one. -/
  quote : ∀ q ∈ s.quote, isColumnQuote q = true
  /-- The name is a word. -/
  name : IsFreeWord s.name
  /-- The gap in front of the colon. -/
  beforeColon : IsGap s.beforeColon
  /-- The gap in front of the builders. -/
  beforeParam : IsGap s.beforeParam
  /-- The name of the builders is a word. -/
  param : IsFreeWord s.param
  /-- The gap in front of the dot. -/
  beforeDot : IsGap s.beforeDot
  /-- The gap in front of the builder. -/
  beforeBuilder : IsGap s.beforeBuilder
  /-- The builder is a word. -/
  builder : IsFreeWord s.builder
  /-- The gap in front of the builder's parentheses. -/
  beforeArguments : IsGap s.beforeArguments
  /-- The arguments of the builder are closed. -/
  arguments : IsClosed s.arguments
  /-- The calls are well-formed. -/
  chain : ∀ c ∈ s.chain, c.WellFormed

/-! ### Parts -/

section

variable {c : Char} {text name rest gap : List Char} {q : Char}

theorem isOuter_of_isMethodChar (h : isMethodChar c = true) : isOuter c = true := by
  rw [isMethodChar, Bool.or_eq_true] at h
  rcases h with h | h
  · exact isOuter_of_isWordChar h
  · rw [eq_of_beq h]
    decide

theorem IsFreeWord.isOuter (h : IsFreeWord text) : ∀ c ∈ text, isOuter c = true :=
  fun c hc => isOuter_of_isWordChar (h.2 c hc)

theorem breaksSlash_of_isOuter (h : isOuter c = true) (hstar : c ≠ '*') (rest : List Char) :
    BreaksSlash (c :: rest) := by
  simp only [isOuter, Bool.and_eq_true, bne_iff_ne] at h
  exact breaksSlash_cons.2 ⟨h.1.1.1.2, hstar⟩

theorem IsFreeWord.breaksSlash (h : IsFreeWord text) (rest : List Char) :
    BreaksSlash (text ++ rest) := by
  obtain ⟨hne, hall⟩ := h
  obtain ⟨c, text, rfl⟩ := List.exists_cons_of_ne_nil hne
  have hc := hall c (List.mem_cons_self ..)
  exact breaksSlash_of_isOuter (isOuter_of_isWordChar hc) (ne_of_isWordChar hc (by decide)) _

theorem isQuote_of_isColumnQuote (h : isColumnQuote q = true) : isQuote q = true := by
  simp only [isColumnQuote, Bool.or_eq_true, beq_iff_eq] at h
  rcases h with rfl | rfl <;> decide

theorem isWordChar_eq_false_of_isColumnQuote (h : isColumnQuote q = true) :
    isWordChar q = false := by
  simp only [isColumnQuote, Bool.or_eq_true, beq_iff_eq] at h
  rcases h with rfl | rfl <;> decide

/-- A literal of word characters ends at its quote. -/
theorem splitLiteral_word (hq : isColumnQuote q = true) (hname : ∀ d ∈ name, isWordChar d = true)
    (rest : List Char) : splitLiteral q (name ++ q :: rest) = some (name ++ [q], rest) := by
  have hescape : q ≠ '\\' := ne_backslash_of_isQuote (isQuote_of_isColumnQuote hq)
  induction name with
  | nil =>
    rw [List.nil_append, splitLiteral, if_pos rfl]
    · rfl
    · exact fun _ _ h => absurd h hescape
  | cons d name ih =>
    obtain ⟨hd, hname⟩ := List.forall_mem_cons.1 hname
    have hne : d ≠ q := ne_of_isWordChar hd (isWordChar_eq_false_of_isColumnQuote hq)
    rw [List.cons_append, splitLiteral, if_neg hne, ih hname]
    · rfl
    · exact fun _ _ h => absurd h (ne_of_isWordChar hd (by decide))

theorem chunks_quoted (hq : isColumnQuote q = true) (hname : ∀ d ∈ name, isWordChar d = true)
    (rest : List Char) :
    chunks (q :: (name ++ q :: rest)) = .literal (q :: (name ++ [q])) :: chunks rest := by
  rw [chunks_cons, chunk_quote (isQuote_of_isColumnQuote hq) (splitLiteral_word hq hname rest)]

/-- A text that is one part by itself, without outer commas and without comments. -/
structure IsSolid (text : List Char) : Prop where
  /-- The text stands apart. -/
  apart : IsApart text
  /-- No comma of it is outside brackets. -/
  commas : commasIn text = 0
  /-- It has no comment. -/
  bare : withoutComments text = text

theorem isSolid_of_isOuter (h : ∀ c ∈ text, isOuter c = true) : IsSolid text where
  apart := .of_isOuter h
  commas := commasIn_of_isOuter h
  bare := by
    have hplain := withoutComments_plain_append (isPlain_of_isOuter h) []
    rwa [List.append_nil, withoutComments_nil, List.append_nil] at hplain

/-- The name of a column in quotes is a literal. -/
theorem isSolid_quoted (hq : isColumnQuote q = true) (hname : ∀ d ∈ name, isWordChar d = true) :
    IsSolid (q :: (name ++ [q])) := by
  have hchunks : chunks (q :: (name ++ [q])) = [.literal (q :: (name ++ [q]))] := by
    rw [chunks_quoted hq hname, chunks_nil]
  refine ⟨⟨⟨?_, ?_⟩, fun rest => ?_⟩, ?_, ?_⟩
  · rw [hchunks]
    exact List.forall_mem_singleton.2 rfl
  · rw [hchunks]
    rfl
  · rw [hchunks, List.cons_append, List.append_assoc, List.singleton_append,
      chunks_quoted hq hname]
    rfl
  · rw [commasIn, hchunks]
    rfl
  · rw [withoutComments, hchunks]
    simp [Chunk.bareText, Chunk.text]

theorem isSolid_columnName {quote : Option Char} (hq : ∀ q ∈ quote, isColumnQuote q = true)
    (hname : IsFreeWord name) : IsSolid (quote.toList ++ (name ++ quote.toList)) := by
  cases quote with
  | none => simpa using isSolid_of_isOuter hname.isOuter
  | some q => exact isSolid_quoted (hq q rfl) hname.2

theorem breaksSlash_columnName {quote : Option Char} (hq : ∀ q ∈ quote, isColumnQuote q = true)
    (hname : IsFreeWord name) : BreaksSlash (quote.toList ++ (name ++ quote.toList)) := by
  cases quote with
  | none => exact hname.breaksSlash []
  | some q =>
    have hquote := hq q rfl
    simp only [isColumnQuote, Bool.or_eq_true, beq_iff_eq] at hquote
    rcases hquote with rfl | rfl <;> exact breaksSlash_cons.2 (by decide)

theorem columnName_ne_nil (hname : IsFreeWord name) (quote : Option Char) :
    quote.toList ++ (name ++ quote.toList) ≠ [] :=
  List.append_ne_nil_of_right_ne_nil _ (List.append_ne_nil_of_left_ne_nil hname.1 _)

end

/-! ### Calls as parts -/

section

variable {c : ChainCall} {inside : List Char}

theorem withoutComments_parenthesised (h : IsClosed inside) :
    withoutComments ('(' :: (inside ++ [')'])) = '(' :: (withoutComments inside ++ [')']) := by
  rw [withoutComments, chunks_bracketed h, chunks_nil]
  simp [withoutComments, Chunk.bareText, Chunk.text]

theorem withoutComments_angled (h : IsClosed inside) :
    withoutComments ('<' :: (inside ++ ['>'])) = '<' :: (withoutComments inside ++ ['>']) := by
  rw [withoutComments, IsApart.chunks_angled h, chunks_nil]
  simp [withoutComments, Chunk.bareText, Chunk.text]

theorem isApart_typesText {types : Option (List Char)} (h : ∀ t ∈ types, IsClosed t) :
    IsApart (ChainCall.typesText types) := by
  cases types with
  | none => exact .of_isOuter fun c hc => absurd hc List.not_mem_nil
  | some t => exact .angled (h t rfl)

theorem withoutComments_typesText {types : Option (List Char)} (h : ∀ t ∈ types, IsClosed t) :
    withoutComments (ChainCall.typesText types) =
      ChainCall.typesText (types.map withoutComments) := by
  cases types with
  | none => exact withoutComments_nil
  | some t => exact withoutComments_angled (h t rfl)

theorem commasIn_typesText {types : Option (List Char)} (h : ∀ t ∈ types, IsClosed t) :
    commasIn (ChainCall.typesText types) = (types.map commasIn).getD 0 := by
  cases types with
  | none => exact commasIn_of_isOuter fun c hc => absurd hc List.not_mem_nil
  | some t => exact commasIn_angled (h t rfl)

namespace ChainCall.WellFormed

theorem isSolid_name (h : c.WellFormed) : IsSolid ('.' :: c.name) :=
  isSolid_of_isOuter (List.forall_mem_cons.2
    ⟨by decide, fun d hd => isOuter_of_isMethodChar (h.name d hd)⟩)

theorem part (h : c.WellFormed) : c.part.WellFormed where
  gap := h.gap
  own := h.isSolid_name.apart.append
    ((isApart_typesText h.types).append (.parenthesised h.argument))
  ne_nil := List.cons_ne_nil _ _
  breaks := breaksSlash_cons.2 (by decide)

/-- A call without its comments is a call again. -/
theorem bare_part (h : c.WellFormed) : c.part.bare = c.bare.part := by
  have hown : withoutComments c.ownText = c.bare.ownText := by
    rw [ownText, h.isSolid_name.apart.withoutComments_append, h.isSolid_name.bare,
      (isApart_typesText h.types).withoutComments_append, withoutComments_typesText h.types,
      withoutComments_parenthesised h.argument]
    rfl
  rw [Part.bare, ChainCall.part, ChainCall.part]
  exact congrArg _ hown

/-- The outer commas of a call are those of its type arguments. -/
theorem commasIn_ownText (h : c.WellFormed) :
    commasIn c.ownText = (c.types.map commasIn).getD 0 := by
  have hname := h.isSolid_name
  have htypes := isApart_typesText h.types
  rw [ownText, commasIn, hname.apart.chunks_append,
    outerCommas_append hname.apart.closed.balanced, htypes.chunks_append,
    outerCommas_append htypes.closed.balanced, ← commasIn, ← commasIn, ← commasIn, hname.commas,
    commasIn_typesText h.types, commasIn_parenthesised h.argument, Nat.zero_add, Nat.add_zero]

end ChainCall.WellFormed

end

/-! ### Entries as rows of parts -/

namespace ChainColumn

variable {s : ChainColumn}

/-- How many commas of type arguments are outside brackets. -/
def typeCommas (s : ChainColumn) : Nat :=
  (s.chain.map fun c => (c.types.map commasIn).getD 0).sum

namespace WellFormed

theorem parts (h : s.WellFormed) : ∀ part ∈ s.parts, part.WellFormed := by
  have hmark : ∀ m, isOuter m = true → m ≠ '*' → ∀ {gap}, IsGap gap →
      Part.WellFormed ⟨gap, [m]⟩ := fun m hm hstar gap hgap =>
    ⟨hgap, (isSolid_of_isOuter (List.forall_mem_singleton.2 hm)).apart, List.cons_ne_nil _ _,
      breaksSlash_of_isOuter hm hstar []⟩
  have hword : ∀ {gap word}, IsGap gap → IsFreeWord word → Part.WellFormed ⟨gap, word⟩ :=
    fun hgap hword => ⟨hgap, (isSolid_of_isOuter hword.isOuter).apart, hword.1,
      by simpa using hword.breaksSlash []⟩
  have hname : Part.WellFormed ⟨[], s.quote.toList ++ (s.name ++ s.quote.toList)⟩ :=
    ⟨isGap_nil, (isSolid_columnName h.quote h.name).apart, columnName_ne_nil h.name _,
      breaksSlash_columnName h.quote h.name⟩
  have harguments : Part.WellFormed ⟨s.beforeArguments, '(' :: (s.arguments ++ [')'])⟩ :=
    ⟨h.beforeArguments, .parenthesised h.arguments, List.cons_ne_nil _ _,
      breaksSlash_cons.2 (by decide)⟩
  refine List.forall_mem_append.2 ⟨?_, ?_⟩
  · simp only [List.forall_mem_cons]
    exact ⟨hname, hmark ':' (by decide) (by decide) h.beforeColon, hword h.beforeParam h.param,
      hmark '.' (by decide) (by decide) h.beforeDot, hword h.beforeBuilder h.builder, harguments,
      fun _ hk => absurd hk List.not_mem_nil⟩
  · intro part hpart
    obtain ⟨c, hc, rfl⟩ := List.mem_map.1 hpart
    exact (h.chain c hc).part

theorem isApart_text (h : s.WellFormed) : IsApart s.text :=
  isApart_partsText h.parts

/-- An entry without its comments is an entry again. -/
theorem withoutComments_text (h : s.WellFormed) : withoutComments s.text = s.bare.text := by
  have hchain : s.chain.map (fun c => c.part.bare) = s.chain.map fun c => c.bare.part :=
    List.map_congr_left fun c hc => (h.chain c hc).bare_part
  have hparts : s.parts.map Part.bare = s.bare.parts := by
    rw [ChainColumn.parts, ChainColumn.parts, List.map_append, List.map_map, Function.comp_def,
      hchain, bare, List.map_map, Function.comp_def]
    simp only [List.map_cons, List.map_nil, Part.bare, withoutComments_nil,
      (isSolid_columnName h.quote h.name).bare, (isSolid_of_isOuter h.param.isOuter).bare,
      (isSolid_of_isOuter h.builder.isOuter).bare, withoutComments_parenthesised h.arguments,
      (isSolid_of_isOuter (List.forall_mem_singleton.2 (by decide : isOuter ':' = true))).bare,
      (isSolid_of_isOuter (List.forall_mem_singleton.2 (by decide : isOuter '.' = true))).bare]
  rw [text, withoutComments_partsText h.parts, hparts, text]

/-- The outer commas of an entry are those of its type arguments. -/
theorem commasIn_text (h : s.WellFormed) : commasIn s.text = s.typeCommas := by
  have hchain : s.chain.map (fun c => commasIn c.part.own) =
      s.chain.map fun c => (c.types.map commasIn).getD 0 :=
    List.map_congr_left fun c hc => (h.chain c hc).commasIn_ownText
  rw [text, commasIn_partsText h.parts, ChainColumn.parts, List.map_append, List.sum_append,
    List.map_map, Function.comp_def, hchain, typeCommas]
  simp only [List.map_cons, List.map_nil, List.sum_cons, List.sum_nil, Nat.add_zero,
    (isSolid_columnName h.quote h.name).commas, (isSolid_of_isOuter h.param.isOuter).commas,
    (isSolid_of_isOuter h.builder.isOuter).commas, commasIn_parenthesised h.arguments,
    (isSolid_of_isOuter (List.forall_mem_singleton.2 (by decide : isOuter ':' = true))).commas,
    (isSolid_of_isOuter (List.forall_mem_singleton.2 (by decide : isOuter '.' = true))).commas,
    Nat.zero_add]

/-- **An entry falls into one group more than its type arguments have outer commas.** -/
theorem length_splitCommas_text (h : s.WellFormed) :
    (splitCommas 0 (chunks s.text)).length = s.typeCommas + 1 := by
  rw [length_splitCommas, ← h.commasIn_text, commasIn]

end WellFormed

end ChainColumn

end SchemaForge.Declaration
