import SchemaForge.Proofs.Declaration.Chain
import SchemaForge.Proofs.Declaration.Respaced

/-!
# Columns with a chain of calls read back

The head of an entry is read whatever blanks stand between its parts.  Behind the builder's
arguments methods are searched for by the beginnings of their calls, and such a beginning is found
in a call of the method without type arguments, or inside of some argument or type arguments.

## Main results

* `columnHead?_gaps` — the head of an entry.
* `occursIn_chainText` — a method is found in a chain exactly when one of its calls shows it.
* `ChainColumn.WellFormed.columnOf?_text` — **an entry without its comments is read as its
  column.**
-/

namespace SchemaForge.Declaration

open Text

/-! ### The head of an entry -/

section

variable {gap rest word name param builder : List Char} {c : Char}

theorem isWordChar_eq_false_of_isBlank (h : isBlank c = true) : isWordChar c = false := by
  rw [← Bool.not_eq_true]
  intro hword
  rw [isBlank_eq_false_of_isWordChar hword] at h
  cases h

theorem isColumnQuote_eq_false_of_isBlank (h : isBlank c = true) : isColumnQuote c = false := by
  rw [← Bool.not_eq_true]
  intro hquote
  rw [isBlank_eq_false_of_isColumnQuote hquote] at h
  cases h

/-- What stands first behind a gap, or in it. -/
theorem forall_mem_head?_gap {P : Char → Prop} (hgap : ∀ d ∈ gap, isBlank d = true)
    (hblank : ∀ d, isBlank d = true → P d) (hc : P c) :
    ∀ d ∈ (gap ++ c :: rest).head?, P d := by
  cases gap with
  | nil => simpa using hc
  | cons d gap => simpa using hblank d (hgap d (List.mem_cons_self ..))

theorem skipBlanks_append (hgap : ∀ d ∈ gap, isBlank d = true)
    (hrest : ∀ d ∈ rest.head?, isBlank d = false) : skipBlanks (gap ++ rest) = rest := by
  rw [skipBlanks, List.dropWhile_append_of_pos hgap]
  cases rest with
  | nil => rfl
  | cons d rest => exact skipBlanks_cons (hrest d rfl) rest

theorem mark?_append (hgap : ∀ d ∈ gap, isBlank d = true) (hc : isBlank c = false) :
    mark? [c] (gap ++ c :: rest) = some rest := by
  rw [mark?, skipBlanks_append hgap (by simpa using hc)]
  exact after?_append [c] rest

theorem IsFreeWord.head?_append (h : IsFreeWord word) :
    ∀ d ∈ (word ++ rest).head?, isWordChar d = true := by
  obtain ⟨hne, hall⟩ := h
  obtain ⟨d, word, rfl⟩ := List.exists_cons_of_ne_nil hne
  simpa using hall d (List.mem_cons_self ..)

theorem skipBlanks_free (hgap : ∀ d ∈ gap, isBlank d = true) (hword : IsFreeWord word) :
    skipBlanks (gap ++ (word ++ rest)) = word ++ rest :=
  skipBlanks_append hgap fun d hd => isBlank_eq_false_of_isWordChar (hword.head?_append d hd)

/-- What does not start with a character of the class is not shortened. -/
theorem skipOne_of_head? {belongs : Char → Bool} {text : List Char}
    (h : ∀ d ∈ text.head?, belongs d = false) : skipOne belongs text = text := by
  cases text with
  | nil => rfl
  | cons d text => rw [skipOne, if_neg (by simp [h d rfl])]

/-- **The head of an entry is read**, whatever blanks stand between its parts. -/
theorem columnHead?_gaps {quote : Option Char} {g₁ g₂ g₃ g₄ g₅ : List Char}
    (hquote : ∀ q ∈ quote, isColumnQuote q = true) (hname : IsFreeWord name)
    (hparam : IsFreeWord param) (hbuilder : IsFreeWord builder)
    (h₁ : ∀ d ∈ g₁, isBlank d = true) (h₂ : ∀ d ∈ g₂, isBlank d = true)
    (h₃ : ∀ d ∈ g₃, isBlank d = true) (h₄ : ∀ d ∈ g₄, isBlank d = true)
    (h₅ : ∀ d ∈ g₅, isBlank d = true) (rest : List Char) :
    columnHead? (quote.toList ++ (name ++ (quote.toList ++ (g₁ ++ ':' :: (g₂ ++ (param ++
      (g₃ ++ '.' :: (g₄ ++ (builder ++ (g₅ ++ '(' :: rest)))))))))) =
      some ⟨name, param, builder, rest⟩ := by
  have hcolon : ∀ {text}, ∀ d ∈ (g₁ ++ ':' :: text).head?,
      isWordChar d = false ∧ isColumnQuote d = false := fun {_} =>
    forall_mem_head?_gap h₁ (fun d hd => ⟨isWordChar_eq_false_of_isBlank hd,
      isColumnQuote_eq_false_of_isBlank hd⟩) (by decide)
  -- the name, between its quotes if it has any
  have hfirst : ∀ text, skipOne isColumnQuote (quote.toList ++ (name ++ text)) = name ++ text := by
    intro text
    cases quote with
    | none =>
      refine skipOne_of_head? fun d hd => ?_
      exact isColumnQuote_eq_false_of_isWordChar (hname.head?_append d hd)
    | some q => exact if_pos (hquote q rfl)
  have hword : ∀ text, word? (name ++ (quote.toList ++ (g₁ ++ ':' :: text))) =
      some (name, quote.toList ++ (g₁ ++ ':' :: text)) := by
    intro text
    refine run?_append hname.1 hname.2 ?_
    cases quote with
    | none => exact fun d hd => (hcolon d hd).1
    | some q => simpa using isWordChar_eq_false_of_isColumnQuote (hquote q rfl)
  have hsecond : ∀ text, skipOne isColumnQuote (quote.toList ++ (g₁ ++ ':' :: text)) =
      g₁ ++ ':' :: text := by
    intro text
    cases quote with
    | none => exact skipOne_of_head? fun d hd => (hcolon d hd).2
    | some q => exact if_pos (hquote q rfl)
  have hparamWord : ∀ text, word? (param ++ (g₃ ++ '.' :: text)) =
      some (param, g₃ ++ '.' :: text) := fun _ =>
    run?_append hparam.1 hparam.2 (forall_mem_head?_gap h₃
      (fun _ hd => isWordChar_eq_false_of_isBlank hd) (by decide))
  have hbuilderWord : ∀ text, word? (builder ++ (g₅ ++ '(' :: text)) =
      some (builder, g₅ ++ '(' :: text) := fun _ =>
    run?_append hbuilder.1 hbuilder.2 (forall_mem_head?_gap h₅
      (fun _ hd => isWordChar_eq_false_of_isBlank hd) (by decide))
  rw [columnHead?, hfirst]
  refine Option.bind_eq_some_iff.2 ⟨_, hword _, ?_⟩
  dsimp only
  rw [hsecond]
  refine Option.bind_eq_some_iff.2 ⟨_, mark?_append h₁ (by decide), ?_⟩
  rw [skipBlanks_free h₂ hparam]
  refine Option.bind_eq_some_iff.2 ⟨_, hparamWord _, ?_⟩
  refine Option.bind_eq_some_iff.2 ⟨_, mark?_append h₃ (by decide), ?_⟩
  rw [skipBlanks_free h₄ hbuilder]
  refine Option.bind_eq_some_iff.2 ⟨_, hbuilderWord _, ?_⟩
  exact Option.bind_eq_some_iff.2 ⟨_, mark?_append h₅ (by decide), rfl⟩

end

/-! ### Calls that are found -/

section

variable {c : ChainCall} {chain : List ChainCall} {method : List Char}

theorem ne_of_isMethodChar {a b : Char} (ha : isMethodChar a = true)
    (hb : isMethodChar b = false) : a ≠ b := by
  rintro rfl
  rw [ha] at hb
  cases hb

theorem isMethodChar_of_all {name : List Char}
    (h : (name.all fun d => isIdentChar d || d == '$') = true) :
    ∀ d ∈ name, isMethodChar d = true := by
  intro d hd
  have hchar := List.all_eq_true.1 h d hd
  rw [Bool.or_eq_true] at hchar
  rw [isMethodChar, Bool.or_eq_true]
  exact hchar.imp_left isWordChar_of_isIdentChar

theorem isMethodChar_of_mem_markedMethods :
    ∀ method ∈ markedMethods, ∀ d ∈ method.toList, isMethodChar d = true := by
  have hall : markedMethods.all fun method =>
      method.toList.all fun d => isIdentChar d || d == '$' := by
    decide
  exact fun method hmethod => isMethodChar_of_all (List.all_eq_true.1 hall method hmethod)

theorem not_mem_of_isMethodChar {name : List Char} (h : ∀ d ∈ name, isMethodChar d = true)
    {b : Char} (hb : isMethodChar b = false) : b ∉ name :=
  fun hmem => ne_of_isMethodChar (h b hmem) hb rfl

theorem not_mem_callHead (h : ∀ d ∈ method, isMethodChar d = true) {b : Char}
    (hb : isMethodChar b = false) (hdot : b ≠ '.') (hopen : b ≠ '(') : b ∉ callHead method := by
  intro hmem
  rcases List.mem_cons.1 hmem with hmem | hmem
  · exact hdot hmem
  rcases List.mem_append.1 hmem with hmem | hmem
  · exact not_mem_of_isMethodChar h hb hmem
  · exact hopen (List.mem_singleton.1 hmem)

/-- A call without its closing parenthesis. -/
def ChainCall.front (c : ChainCall) : List Char :=
  ('.' :: c.name) ++ (typesText c.types ++ '(' :: c.argument)

theorem chainText_cons (c : ChainCall) (chain : List ChainCall) :
    chainText (c :: chain) = (c.gap ++ c.front) ++ ')' :: chainText chain := by
  simp [chainText, partsText, ChainCall.part, ChainCall.ownText, ChainCall.front]

/-- Arguments and the calls behind them end in a parenthesis. -/
theorem exists_append_chainText (arguments : List Char) (chain : List ChainCall) :
    ∃ front, arguments ++ ')' :: chainText chain = front ++ [')'] := by
  induction chain generalizing arguments with
  | nil => exact ⟨arguments, rfl⟩
  | cons c chain ih =>
    obtain ⟨front, hfront⟩ := ih (arguments ++ ')' :: (c.gap ++ c.front))
    refine ⟨front, ?_⟩
    rw [chainText_cons, ← hfront]
    simp

/-- The beginning of a call is found in another exactly when that one shows it. -/
theorem isInfix_front_iff (hmethod : ∀ d ∈ method, isMethodChar d = true)
    (hname : ∀ d ∈ c.name, isMethodChar d = true) :
    callHead method <:+: c.front ↔ c.shows method = true := by
  have hopen : '(' ∈ callHead method := by simp [callHead]
  have hne : callHead method ≠ [] := List.cons_ne_nil _ _
  rw [ChainCall.shows, Bool.or_eq_true, Bool.or_eq_true, Bool.and_eq_true, beq_iff_eq,
    occursIn_eq_true_iff]
  constructor
  · intro h
    by_cases hargument : callHead method <:+: c.argument
    · exact .inr hargument
    refine .inl ?_
    cases htypes : c.types with
    | none =>
      have hcall : callHead method <:+: callHead c.name ++ c.argument := by
        simpa [ChainCall.front, ChainCall.typesText, htypes, callHead] using h
      exact .inl ⟨rfl, name_eq_of_isInfix (c := ⟨c.name, c.argument⟩)
        (not_mem_of_isMethodChar hmethod (by decide)) (not_mem_of_isMethodChar hname (by decide))
        (not_mem_of_isMethodChar hname (by decide)) hargument hcall⟩
    | some types =>
      have hcall : callHead method <:+:
          ('.' :: c.name) ++ '<' :: (types ++ '>' :: '(' :: c.argument) := by
        simpa [ChainCall.front, ChainCall.typesText, htypes] using h
      -- no beginning of a call reaches across an angle bracket
      rcases isInfix_append_cons (not_mem_callHead hmethod (by decide) (by decide) (by decide))
        hcall with hcall | hcall
      · have hmem := hcall.subset hopen
        rcases List.mem_cons.1 hmem with hmem | hmem
        · exact absurd hmem (by decide)
        · exact absurd hmem (not_mem_of_isMethodChar hname (by decide))
      rcases isInfix_append_cons (not_mem_callHead hmethod (by decide) (by decide) (by decide))
        hcall with hcall | hcall
      · exact .inr (by simpa [occursIn_eq_true_iff] using hcall)
      · exact absurd (isInfix_of_isInfix_cons (by simp [callHead]) hne hcall) hargument
  · rintro ((⟨hnone, rfl⟩ | htypes) | hargument)
    · have hfront : c.front = callHead c.name ++ c.argument := by
        rw [Option.isNone_iff_eq_none] at hnone
        simp [ChainCall.front, ChainCall.typesText, hnone, callHead]
      rw [hfront]
      exact (List.prefix_append ..).isInfix
    · cases hsome : c.types with
      | none => simp [hsome] at htypes
      | some types =>
        have hshown : callHead method <:+: types := by
          simpa [hsome, occursIn_eq_true_iff] using htypes
        rw [ChainCall.front, hsome]
        refine hshown.trans ⟨('.' :: c.name) ++ ['<'], '>' :: '(' :: c.argument, ?_⟩
        simp [ChainCall.typesText]
    · exact hargument.trans ⟨('.' :: c.name) ++ (ChainCall.typesText c.types ++ ['(']), [],
        by simp [ChainCall.front]⟩

/-- **A method is found in a chain exactly when one of its calls shows it.** -/
theorem occursIn_chainText (hmethod : ∀ d ∈ method, isMethodChar d = true)
    (hchain : ∀ c ∈ chain, (∀ d ∈ c.gap, isBlank d = true) ∧ ∀ d ∈ c.name, isMethodChar d = true) :
    occursIn (callHead method) (chainText chain) = chain.any (ChainCall.shows method) := by
  induction chain with
  | nil => rfl
  | cons c chain ih =>
    obtain ⟨⟨hgap, hname⟩, hchain⟩ := List.forall_mem_cons.1 hchain
    have hclose : ')' ∉ callHead method :=
      not_mem_callHead hmethod (by decide) (by decide) (by decide)
    rw [List.any_cons, ← ih hchain, Bool.eq_iff_iff, Bool.or_eq_true, occursIn_eq_true_iff,
      occursIn_eq_true_iff, chainText_cons, ← isInfix_front_iff hmethod hname]
    constructor
    · intro h
      refine (isInfix_append_cons hclose h).imp_left fun h => ?_
      refine isInfix_of_isInfix_append (fun d hd => ?_) (List.cons_ne_nil _ _) h
      rintro ⟨rfl⟩
      exact absurd (hgap '.' hd) (by decide)
    · rintro (h | h)
      · exact h.trans ((List.suffix_append ..).isInfix.trans (List.prefix_append ..).isInfix)
      · exact h.trans ((List.suffix_cons ..).trans (List.suffix_append ..)).isInfix

end

/-! ### The column of an entry -/

/-- Closed text in front of a closing bracket ends there. -/
theorem splitClosing_closed {inside : List Char} (h : IsClosed inside) (rest : List Char) :
    splitClosing 0 (chunks (inside ++ ')' :: rest)) = some (chunks inside, chunks rest) := by
  have hclosing := splitClosing_append h.ended h.balanced 0 (.char ')' :: chunks rest)
  have hfound : splitClosing 0 (.char ')' :: chunks rest) = some ([], chunks rest) := rfl
  rw [chunks_append h.ended (breaksSlash_parenthesis rest), chunks_cons,
    chunk_eq_char (by decide) (.inl (by decide)), hclosing, Nat.add_zero, hfound]
  simp

namespace ChainColumn

variable {s : ChainColumn}

theorem text_eq (s : ChainColumn) :
    s.text = s.quote.toList ++ (s.name ++ (s.quote.toList ++ (s.beforeColon ++ ':' ::
      (s.beforeParam ++ (s.param ++ (s.beforeDot ++ '.' :: (s.beforeBuilder ++ (s.builder ++
        (s.beforeArguments ++ '(' :: (s.arguments ++ ')' :: chainText s.chain)))))))))) := by
  simp [text, parts, partsText, chainText]

/-- An entry ends in a parenthesis. -/
theorem exists_text_eq (s : ChainColumn) : ∃ front, s.text = front ++ [')'] := by
  obtain ⟨front, hfront⟩ := exists_append_chainText s.arguments s.chain
  refine ⟨s.quote.toList ++ (s.name ++ (s.quote.toList ++ (s.beforeColon ++ ':' ::
    (s.beforeParam ++ (s.param ++ (s.beforeDot ++ '.' :: (s.beforeBuilder ++ (s.builder ++
      (s.beforeArguments ++ '(' :: front))))))))), ?_⟩
  rw [text_eq, hfront]
  simp

namespace WellFormed

/-- **An entry without its comments is read as its column.** -/
theorem columnOf?_text (h : s.WellFormed) :
    columnOf? s.param s.bare.text = some s.bare.column := by
  have hchain : ∀ c ∈ s.bare.chain,
      (∀ d ∈ c.gap, isBlank d = true) ∧ ∀ d ∈ c.name, isMethodChar d = true := by
    intro c hc
    obtain ⟨d, hd, rfl⟩ := List.mem_map.1 hc
    exact ⟨(h.chain d hd).gap.isBlank_withoutComments, (h.chain d hd).name⟩
  have hhead := columnHead?_gaps h.quote h.name h.param h.builder
    h.beforeColon.isBlank_withoutComments h.beforeParam.isBlank_withoutComments
    h.beforeDot.isBlank_withoutComments h.beforeBuilder.isBlank_withoutComments
    h.beforeArguments.isBlank_withoutComments
    (withoutComments s.arguments ++ ')' :: chainText s.bare.chain)
  have hclosing := splitClosing_closed h.arguments.withoutComments (chainText s.bare.chain)
  -- every call that is looked for is found as the chain shows it
  have hcall : ∀ method ∈ markedMethods, ∀ call : String, call = "." ++ method ++ "(" →
      hasCall (chainText s.bare.chain) call = s.bare.shows method := by
    rintro method hmethod call rfl
    have hmarker : ("." ++ method ++ "(").toList = callHead method.toList := by simp [callHead]
    rw [hasCall, hmarker, occursIn_chainText (isMethodChar_of_mem_markedMethods method hmethod)
      hchain]
    rfl
  have hdefault : defaultMarkers.any (hasCall (chainText s.bare.chain)) =
      defaultMethods.any s.bare.shows := by
    have hmarkers : defaultMarkers = defaultMethods.map fun method => "." ++ method ++ "(" := by
      decide
    have hmarked : ∀ method ∈ defaultMethods, method ∈ markedMethods := by decide
    rw [hmarkers, List.any_map, Bool.eq_iff_iff, List.any_eq_true, List.any_eq_true]
    exact exists_congr fun method => and_congr_right fun hmethod => by
      rw [Function.comp_apply, hcall method (hmarked method hmethod) _ rfl]
  have hcolumn : columnWith s.name s.builder (chainText s.bare.chain) = s.bare.column := by
    rw [columnWith, column, hdefault, hcall "array" (by decide) ".array(" (by decide),
      hcall "notNull" (by decide) ".notNull(" (by decide),
      hcall "primaryKey" (by decide) ".primaryKey(" (by decide),
      hcall "unique" (by decide) ".unique(" (by decide)]
    rfl
  rw [text_eq, columnOf?]
  refine Option.bind_eq_some_iff.2 ⟨_, hhead, ?_⟩
  refine Option.bind_eq_some_iff.2 ⟨(), if_pos rfl, ?_⟩
  refine Option.bind_eq_some_iff.2 ⟨_, hclosing, ?_⟩
  dsimp only
  rw [chunks_flatMap_text, hcolumn]
  rfl

end WellFormed

end ChainColumn

end SchemaForge.Declaration
