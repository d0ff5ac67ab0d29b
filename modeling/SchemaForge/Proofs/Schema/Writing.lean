import SchemaForge.Proofs.Schema.Scanning

/-!
# The tokens of written lines

Every part of a line is written in a text that is scanned into the part's canonical tokens,
whatever stands behind it, so long as nothing runs into its end.  Padding adds no token, and no
line loses one when the blanks at its end are taken away.

## Main definitions

* `Writes` — a text that adds tokens to those of what follows.
* `EndsInk` — a text that does not end in a blank.
* `LineSpells` — a line that adds tokens, and the end of a line, to those of the next lines.

## Main results

* `IsValue.writes`, `IsAttribute.writes` — the parts of a line.
* `IsField.lineSpells`, `IsEnumValue.lineSpells`, `IsSetting.lineSpells`,
  `IsAttribute.lineSpells` — whole lines.
-/

namespace SchemaForge.Schema

open Text

/-- Every token of the row carries the text of a lexeme. -/
abbrev AreLexical (ts : List TokenKind) : Prop :=
  ∀ t ∈ ts, t.Lexical

theorem AreLexical.undotted {ts : List TokenKind} (h : AreLexical ts) : ∀ t ∈ ts, t.Undotted :=
  fun t ht => (h t ht).undotted

/-! ### Texts in front of others -/

section

variable {text text' : List Char} {ts us : List TokenKind}

/-- In front of anything that does not run into it, a text adds tokens to those that follow. -/
def Writes (text : List Char) (ts : List TokenKind) : Prop :=
  ∀ rest us, Breaks rest → Spells rest us → Spells (text ++ rest) (ts ++ us)

theorem writes_nil : Writes [] [] :=
  fun _ _ _ h => h

theorem Writes.append (h : Writes text ts) (h' : Writes text' us) (hbreaks : Breaks text') :
    Writes (text ++ text') (ts ++ us) := by
  intro rest vs hrest hvs
  rw [List.append_assoc, List.append_assoc]
  exact h _ _ (hbreaks.append hrest) (h' rest vs hrest hvs)

theorem Writes.punctuation {c : Char} {kind : TokenKind} (hc : punctuation? c = some kind)
    (h : Writes text ts) : Writes (c :: text) (kind :: ts) :=
  fun rest us hrest hus => spells_punctuation hc (h rest us hrest hus)

theorem Writes.space (h : Writes text ts) : Writes (' ' :: text) ts :=
  fun rest us hrest hus => (h rest us hrest hus).blank (by decide) (by decide)

theorem writes_spaces (n : Nat) : Writes (List.replicate n ' ') [] :=
  fun _ _ _ h => h.spaces n

theorem writes_name {name : String} (h : (TokenKind.ident name).Lexical) :
    Writes name.toList [.ident name] :=
  fun _ _ hrest hus => spells_name h (fun d hd => (hrest d hd).1) hus

theorem writes_number {digits : String} (h : (TokenKind.number digits).Lexical) :
    Writes digits.toList [.number digits] :=
  fun _ _ hrest hus => spells_number h hrest hus

theorem writes_quote (value : String) : Writes (quote value.toList) [.str value] :=
  fun _ _ _ hus => spells_quote value hus

theorem breaks_space (rest : List Char) : Breaks (' ' :: rest) :=
  breaks_cons.2 (by decide)

theorem breaks_spaces (n : Nat) : Breaks (List.replicate n ' ') := by
  cases n with
  | zero => exact breaks_nil
  | succ n => exact breaks_space _

theorem Writes.padTo (width : UInt16) (h : Writes text ts) : Writes (padTo width text) ts := by
  have hpad := h.append (writes_spaces (width.toNat - text.length)) (breaks_spaces _)
  rwa [List.append_nil] at hpad

end

/-! ### Texts that end in no blank -/

/-- A text with a last character that is no blank. -/
def EndsInk (text : List Char) : Prop :=
  ∃ front c, text = front ++ [c] ∧ isBlank c = false

section

variable {text : List Char}

theorem EndsInk.append_left (front : List Char) (h : EndsInk text) : EndsInk (front ++ text) := by
  obtain ⟨behind, c, rfl, hc⟩ := h
  exact ⟨front ++ behind, c, (List.append_assoc ..).symm, hc⟩

theorem EndsInk.trimEnd_eq (h : EndsInk text) : trimEnd text = text := by
  obtain ⟨front, c, rfl, hc⟩ := h
  exact trimEnd_concat front hc

theorem endsInk_concat (front : List Char) {c : Char} (h : isBlank c = false) :
    EndsInk (front ++ [c]) :=
  ⟨front, c, rfl, h⟩

theorem endsInk_of_ne_nil (hne : text ≠ []) (h : ∀ c ∈ text, isBlank c = false) :
    EndsInk text :=
  ⟨text.dropLast, text.getLast hne, (List.dropLast_concat_getLast hne).symm,
    h _ (List.getLast_mem hne)⟩

end

theorem endsInk_name {name : String} (h : (TokenKind.ident name).Lexical) :
    EndsInk name.toList := by
  obtain ⟨c, cs, htext, hc, hcs⟩ := h
  rw [htext]
  refine endsInk_of_ne_nil (by simp) fun d hd => isBlank_eq_false_of_isNameChar ?_
  rcases List.mem_cons.1 hd with rfl | hd
  · exact isNameChar_of_startsName hc
  · exact hcs d hd

theorem endsInk_number {digits : String} (h : (TokenKind.number digits).Lexical) :
    EndsInk digits.toList := by
  obtain ⟨c, cs, htext, hc, hcs⟩ := h
  rw [htext]
  refine endsInk_of_ne_nil (by simp) fun d hd => ?_
  rcases List.mem_cons.1 hd with rfl | hd
  · rcases hc with hc | ⟨rfl, -⟩
    · exact isBlank_eq_false_of_isNameChar (isNameChar_of_isDigit hc)
    · decide
  · exact isBlank_eq_false_of_isNumberChar (hcs d hd)

/-! ### Lists with commas -/

/-- Texts with a comma and a space between any two. -/
def commaText {α : Type} (text : α → List Char) : List α → List Char
  | [] => []
  | [a] => text a
  | a :: as => text a ++ ',' :: ' ' :: commaText text as

theorem writes_commaText {α : Type} {text : α → List Char} {tokens : α → List TokenKind}
    {as : List α} (h : ∀ a ∈ as, Writes (text a) (tokens a)) :
    Writes (commaText text as) (commaTokens tokens as) := by
  induction as with
  | nil => exact writes_nil
  | cons a as ih =>
    have ha := h a (List.mem_cons_self ..)
    cases as with
    | nil => exact ha
    | cons b bs =>
      have htail := ih fun c hc => h c (List.mem_cons_of_mem _ hc)
      exact ha.append (htail.space.punctuation rfl) (breaks_cons.2 (by decide))

theorem valuesText_eq (vs : List Value) : valuesText vs = commaText Value.text vs := by
  induction vs with
  | nil => rfl
  | cons v vs ih =>
    cases vs with
    | nil => rfl
    | cons w ws => rw [valuesText, commaText, ih] <;> simp

/-- An argument as it is written. -/
def Argument.text (a : Argument Value) : List Char :=
  argumentMark a.name ++ a.value.text

theorem argumentsText_eq (args : List (Argument Value)) :
    argumentsText args = commaText Argument.text args := by
  induction args with
  | nil => rfl
  | cons a as ih =>
    cases as with
    | nil => rfl
    | cons b bs => rw [argumentsText, commaText, ih, Argument.text] <;> simp

/-! ### Values and arguments -/

theorem text_ofName (name : String) : (Value.ofName name).text = name.toList := by
  rw [Value.ofName.eq_def]
  split <;> rfl

/-- Brackets around what is written. -/
theorem Writes.bracketed {text : List Char} {ts : List TokenKind} (h : Writes text ts)
    {o c : Char} {o' c' : TokenKind} (ho : punctuation? o = some o')
    (hc : punctuation? c = some c') (hbreaks : Breaks [c]) :
    Writes (o :: (text ++ [c])) (o' :: (ts ++ [c'])) :=
  (h.append (writes_nil.punctuation hc) hbreaks).punctuation ho

theorem writes_argument {P : List TokenKind → Value → Prop} {ts : List TokenKind}
    {a : Argument Value} (h : IsArgument P ts a) (hts : AreLexical ts)
    (hP : ∀ us v, us ⊆ ts → P us v → Writes v.text v.tokens) : Writes a.text a.tokens := by
  cases h with
  | positional hv => exact hP _ _ (fun t ht => ht) hv
  | @named us v name hv =>
    have hvalue := hP us v (fun t ht => by simp [ht]) hv
    have hname := writes_name (hts (.ident name) (by simp))
    have h := hname.append (hvalue.space.punctuation (c := ':') rfl) (breaks_cons.2 (by decide))
    simpa [Argument.text, Argument.tokens, argumentMark, argumentMarkTokens] using h

/-- **A value is written in its canonical tokens.** -/
theorem IsValue.writes {ts : List TokenKind} {v : Value} (h : IsValue ts v)
    (hts : AreLexical ts) : Writes v.text v.tokens := by
  induction h using IsValue.induction with
  | string s => exact writes_quote s
  | number n => exact writes_number (hts _ (by simp))
  | name n =>
    rw [tokens_ofName, text_ofName]
    exact writes_name (hts _ (by simp))
  | call name ts args _ ih =>
    have hargs : Writes (argumentsText args) (argumentsTokens args) := by
      rw [argumentsText_eq, argumentsTokens_eq]
      -- each argument is spelled by a part of the tokens, and so is lexical
      refine writes_commaText fun a ha => ?_
      obtain ⟨us, hsub, hus⟩ := ih.exists_of_mem ha
      have hlexical : AreLexical us := fun t ht => hts t (by simp [hsub ht])
      exact writes_argument hus hlexical fun xs v hxs hv =>
        hv.2 fun t ht => hlexical t (hxs ht)
    have hname := writes_name (hts (.ident name) (by simp))
    have hcall := hargs.bracketed (o := '(') (c := ')') rfl rfl (breaks_cons.2 (by decide))
    rw [Value.text, Value.tokens]
    exact hname.append hcall (breaks_cons.2 (by decide))
  | array ts vs _ ih =>
    have hvs : Writes (valuesText vs) (valuesTokens vs) := by
      rw [valuesText_eq, valuesTokens_eq]
      refine writes_commaText fun v hv => ?_
      obtain ⟨us, hsub, hus⟩ := ih.exists_of_mem hv
      exact hus.2 fun t ht => hts t (by simp [hsub ht])
    rw [Value.text, Value.tokens]
    exact hvs.bracketed rfl rfl (breaks_cons.2 (by decide))

theorem IsValue.endsInk {ts : List TokenKind} {v : Value} (h : IsValue ts v)
    (hts : AreLexical ts) : EndsInk v.text := by
  cases h with
  | string s => exact endsInk_concat ('"' :: s.toList.flatMap escape) (by decide)
  | number n => exact endsInk_number (hts _ (by simp))
  | name n =>
    rw [text_ofName]
    exact endsInk_name (hts _ (by simp))
  | call name hl =>
    rw [Value.text]
    exact EndsInk.append_left _ (endsInk_concat ('(' :: argumentsText _) (by decide))
  | array hl =>
    rw [Value.text]
    exact endsInk_concat ('[' :: valuesText _) (by decide)

theorem writes_argumentsText {ts : List TokenKind} {args : List (Argument Value)}
    (h : CommaList (IsArgument IsValue) ts args) (hts : AreLexical ts) :
    Writes (argumentsText args) (argumentsTokens args) := by
  rw [argumentsText_eq, argumentsTokens_eq]
  refine writes_commaText fun a ha => ?_
  obtain ⟨us, hsub, hus⟩ := h.exists_of_mem ha
  have hlexical : AreLexical us := fun t ht => hts t (hsub ht)
  exact writes_argument hus hlexical fun xs v hxs hv => hv.writes fun t ht => hlexical t (hxs ht)

/-! ### Attributes -/

/-- A dot ends a name, though it would not end a number. -/
theorem IsDottedName.spells {ts us : List TokenKind} {name : String} (h : IsDottedName ts name)
    (hts : AreLexical ts) {rest : List Char} (hstop : ∀ d ∈ rest.head?, isNameChar d = false)
    (hrest : Spells rest us) : Spells (name.toList ++ rest) (ts ++ us) := by
  induction h generalizing rest us with
  | single name => exact spells_name (hts _ (by simp)) hstop hrest
  | @snoc ts front part _ ih =>
    have hpart := spells_name (hts (.ident part) (by simp)) hstop hrest
    have hdot : ∀ d ∈ ('.' :: (part.toList ++ rest)).head?, isNameChar d = false := by
      simp only [List.head?_cons, Option.mem_some_iff, forall_eq']
      decide
    have hfront := ih (fun t ht => hts t (by simp [ht])) hdot (spells_punctuation rfl hpart)
    simpa using hfront

theorem IsDottedName.writes {ts : List TokenKind} {name : String} (h : IsDottedName ts name)
    (hts : AreLexical ts) : Writes name.toList ts :=
  fun _ _ hrest hus => h.spells hts (fun d hd => (hrest d hd).1) hus

/-- A dotted name starts like a name and ends like one. -/
theorem IsDottedName.ends {ts : List TokenKind} {name : String} (h : IsDottedName ts name)
    (hts : AreLexical ts) :
    (∃ c cs, name.toList = c :: cs ∧ startsName c = true) ∧ EndsInk name.toList := by
  induction h with
  | single name =>
    have hname := hts (.ident name) (by simp)
    obtain ⟨c, cs, htext, hc, -⟩ := id hname
    exact ⟨⟨c, cs, htext, hc⟩, endsInk_name hname⟩
  | @snoc ts front part _ ih =>
    obtain ⟨⟨c, cs, htext, hc⟩, -⟩ := ih fun t ht => hts t (by simp [ht])
    refine ⟨⟨c, cs ++ '.' :: part.toList, by simp [htext], hc⟩, ?_⟩
    have hpart := endsInk_name (hts (.ident part) (by simp))
    simpa using hpart.append_left (front.toList ++ ['.'])

/-- **An attribute is written in its canonical tokens.** -/
theorem IsAttribute.writes {ts : List TokenKind} {a : Attribute} (h : IsAttribute ts a)
    (hts : AreLexical ts) : Writes a.text a.tokens := by
  cases h with
  | bare hname =>
    rw [Attribute.text, Attribute.tokens, ← hname.eq_dottedTokens hts.undotted]
    simpa using hname.writes hts
  | @applied ts us name args hname hargs =>
    have hlexical : AreLexical ts := fun t ht => hts t (by simp [ht])
    have hargs' := writes_argumentsText hargs fun t ht => hts t (by simp [ht])
    rw [Attribute.text, Attribute.tokens, ← hname.eq_dottedTokens hlexical.undotted]
    cases args with
    | nil => simpa using hname.writes hlexical
    | cons a as =>
      have hcall := hargs'.bracketed (o := '(') (c := ')') rfl rfl (breaks_cons.2 (by decide))
      exact (hname.writes hlexical).append hcall (breaks_cons.2 (by decide))

theorem IsAttribute.ends {ts : List TokenKind} {a : Attribute} (h : IsAttribute ts a)
    (hts : AreLexical ts) : (∀ xs rest, a.text ++ rest ≠ '@' :: xs) ∧ EndsInk a.text := by
  -- the text of the name, whatever follows it, starts with no mark
  have hstart : ∀ {us name}, IsDottedName us name → AreLexical us →
      ∀ xs rest, name.toList ++ rest ≠ '@' :: xs := by
    intro us name hname hus xs rest heq
    obtain ⟨⟨c, cs, htext, hc⟩, -⟩ := hname.ends hus
    rw [htext] at heq
    exact (ne_of_startsName hc).2.2.2.1 (List.cons.inj heq).1
  cases h with
  | bare hname => exact ⟨hstart hname hts, (hname.ends hts).2⟩
  | @applied ts us name args hname hargs =>
    have hlexical : AreLexical ts := fun t ht => hts t (by simp [ht])
    rw [Attribute.text]
    cases args with
    | nil => exact ⟨hstart hname hlexical, (hname.ends hlexical).2⟩
    | cons a as =>
      refine ⟨fun xs rest heq => ?_, ?_⟩
      · simp only [List.isEmpty_cons, Bool.false_eq_true, if_false, List.append_assoc] at heq
        exact hstart hname hlexical _ _ heq
      · exact EndsInk.append_left _ (endsInk_concat ('(' :: argumentsText _) (by decide))

theorem writes_at {text : List Char} {ts : List TokenKind} (h : Writes text ts)
    (hne : ∀ xs rest, text ++ rest ≠ '@' :: xs) : Writes ('@' :: text) (.at :: ts) :=
  fun rest us hrest hus => spells_at (fun xs => hne xs rest) (h rest us hrest hus)

theorem breaks_attributesText (as : List Attribute) : Breaks (attributesText as) := by
  cases as with
  | nil => exact breaks_nil
  | cons a as => exact breaks_space _

theorem AreAttributes.writes {ts : List TokenKind} {as : List Attribute}
    (h : AreAttributes ts as) (hts : AreLexical ts) :
    Writes (attributesText as) (attributesTokens as) := by
  induction h with
  | nil => exact writes_nil
  | @cons us ts a as ha _ ih =>
    have hlexical : AreLexical us := fun t ht => hts t (by simp [ht])
    have hattr := (writes_at (ha.writes hlexical) (ha.ends hlexical).1).space
    exact hattr.append (ih fun t ht => hts t (by simp [ht])) (breaks_attributesText as)

theorem AreAttributes.eq_nil_or_endsInk {ts : List TokenKind} {as : List Attribute}
    (h : AreAttributes ts as) (hts : AreLexical ts) : as = [] ∨ EndsInk (attributesText as) := by
  induction h with
  | nil => exact .inl rfl
  | @cons us ts a as ha _ ih =>
    have hlexical : AreLexical us := fun t ht => hts t (by simp [ht])
    have hattr := (ha.ends hlexical).2.append_left [' ', '@']
    rcases ih fun t ht => hts t (by simp [ht]) with rfl | hend
    · exact .inr (by simpa [attributesText] using hattr)
    · exact .inr (by simpa [attributesText] using hend.append_left (' ' :: '@' :: a.text))

/-! ### Types of fields -/

theorem lexical_unsupportedName : (TokenKind.ident unsupportedName).Lexical :=
  ⟨'U', "nsupported".toList, rfl, by decide, List.all_eq_true.1 (by decide)⟩

theorem IsFieldType.writes {ts : List TokenKind} {type : FieldType} (h : IsFieldType ts type)
    (hts : AreLexical ts) : Writes type.text type.tokens := by
  cases h with
  | named name => exact writes_name (hts _ (by simp))
  | unsupported native =>
    have hnative := (writes_quote native).bracketed (o := '(') (c := ')') rfl rfl
      (breaks_cons.2 (by decide))
    exact (writes_name lexical_unsupportedName).append hnative (breaks_cons.2 (by decide))

theorem IsFieldType.endsInk {ts : List TokenKind} {type : FieldType} (h : IsFieldType ts type)
    (hts : AreLexical ts) : EndsInk type.text := by
  cases h with
  | named name => exact endsInk_name (hts _ (by simp))
  | unsupported native =>
    exact endsInk_concat ("Unsupported(".toList ++ quote native.toList) (by decide)

theorem writes_modifierText (modifier : Option Modifier) :
    Writes (modifierText modifier) (modifierTokens modifier) := by
  rcases modifier with _ | _ | _
  · exact writes_nil
  · exact writes_nil.punctuation rfl
  · exact (writes_nil.punctuation rfl).punctuation rfl

theorem breaks_modifierText (modifier : Option Modifier) : Breaks (modifierText modifier) := by
  rcases modifier with _ | _ | _
  · exact breaks_nil
  · exact breaks_cons.2 (by decide)
  · exact breaks_cons.2 (by decide)

theorem endsInk_append_modifierText {text : List Char} (h : EndsInk text)
    (modifier : Option Modifier) : EndsInk (text ++ modifierText modifier) := by
  rcases modifier with _ | _ | _
  · simpa [modifierText] using h
  · exact endsInk_concat text (by decide)
  · exact EndsInk.append_left text (endsInk_concat ['['] (by decide))

/-! ### Lines -/

/-- In front of other lines, a line adds tokens and the end of a line to those that follow. -/
def LineSpells (line : List Char) (ts : List TokenKind) : Prop :=
  ∀ rest us, Spells rest us → Spells (line ++ '\n' :: rest) (ts ++ .newline :: us)

theorem breaks_newline (rest : List Char) : Breaks ('\n' :: rest) :=
  breaks_cons.2 (by decide)

theorem Writes.lineSpells {line : List Char} {ts : List TokenKind} (h : Writes line ts) :
    LineSpells line ts :=
  fun rest _ hus => h _ _ (breaks_newline rest) (spells_newline hus)

theorem lineSpells_comment {text : String} (h : (TokenKind.comment text).Lexical) :
    LineSpells (indented text.toList) [.comment text] :=
  fun _ _ hus =>
    ((spells_comment h (spells_newline hus)).blank (by decide) (by decide)).blank
      (by decide) (by decide)

/-- The comment at the end of a line is its last token. -/
theorem lineSpells_withComment {line : List Char} {ts : List TokenKind} {comment : Option String}
    (h : Writes (trimEnd line) ts) (hcomment : AreLexical (commentTokens comment)) :
    LineSpells (withComment line comment) (ts ++ commentTokens comment) := by
  cases comment with
  | none =>
    rw [commentTokens, List.append_nil]
    exact h.lineSpells
  | some text =>
    intro rest us hus
    have htext := spells_comment (hcomment (.comment text) (by simp [commentTokens]))
      (spells_newline hus)
    rw [withComment, List.append_assoc, List.append_assoc]
    exact h _ _ (breaks_space _) (htext.blank (by decide) (by decide))

/-- A line of columns, cut behind the space between the first and the second. -/
theorem indented_append_space (column rest : List Char) :
    indented (column ++ ' ' :: rest) = indented (column ++ [' ']) ++ rest := by
  simp [indented]

theorem EndsInk.indented {line : List Char} (h : EndsInk line) : EndsInk (indented line) :=
  h.append_left [' ', ' ']

theorem trimEnd_append_padTo {front text : List Char} (h : EndsInk text) (width : UInt16) :
    trimEnd (front ++ padTo width text) = front ++ text := by
  have hblank : ∀ c ∈ List.replicate (width.toNat - text.length) ' ', isBlank c = true := by
    intro c hc
    rw [List.eq_of_mem_replicate hc]
    decide
  rw [padTo, ← List.append_assoc, trimEnd_append_of_isBlank _ hblank,
    (h.append_left front).trimEnd_eq]

/-- Columns add no token, and a field without attributes loses only padding at its end. -/
theorem IsField.lineSpells {ts : List TokenKind} {f : Field} (h : IsField ts f)
    (hts : AreLexical ts) (nameWidth typeWidth : UInt16) :
    LineSpells (f.line nameWidth typeWidth) f.tokens := by
  obtain ⟨name, type, modifier, attributes, comment⟩ := f
  cases h with
  | @intro _ us xs _ _ _ _ htype hattributes =>
    have hxs : AreLexical xs := fun t ht => hts t (by simp [ht])
    have hus : AreLexical us := fun t ht => hts t (by simp [ht])
    have hcomment : AreLexical (commentTokens comment) := fun t ht => hts t (by simp [ht])
    have hname : Writes (padTo nameWidth name.toList) [.ident name] :=
      (writes_name (hts _ (by simp))).padTo nameWidth
    have htypeText := (htype.writes hus).append (writes_modifierText modifier)
      (breaks_modifierText modifier)
    have hink := endsInk_append_modifierText (htype.endsInk hus) modifier
    -- whatever is written behind the name stands behind a space
    have hbehind : ∀ {text ks}, Writes text ks →
        Writes (indented (padTo nameWidth name.toList ++ [' ']) ++ text) (.ident name :: ks) := by
      intro text ks h
      rw [← indented_append_space]
      exact (hname.append h.space (breaks_space _)).space.space
    have hline : Writes (trimEnd (indented (padTo nameWidth name.toList ++ ' ' ::
        (padTo typeWidth (type.text ++ modifierText modifier) ++ attributesText attributes))))
        (.ident name :: (type.tokens ++ modifierTokens modifier ++
          attributesTokens attributes)) := by
      rw [indented_append_space]
      -- without attributes the padding of the type is trimmed off, with them nothing is
      rcases hattributes.eq_nil_or_endsInk hxs with rfl | hend
      · rw [attributesText, List.flatMap_nil, List.append_nil, trimEnd_append_padTo hink,
          attributesTokens, List.flatMap_nil, List.append_nil]
        exact hbehind htypeText
      · rw [((hend.append_left _).append_left _).trimEnd_eq]
        exact hbehind ((htypeText.padTo typeWidth).append (hattributes.writes hxs)
          (breaks_attributesText attributes))
    have hall := lineSpells_withComment hline hcomment
    simpa [Field.line, Field.typeText, Field.tokens] using hall

theorem IsEnumValue.lineSpells {ts : List TokenKind} {v : EnumValue} (h : IsEnumValue ts v)
    (hts : AreLexical ts) : LineSpells v.line v.tokens := by
  obtain ⟨name, attributes, comment⟩ := v
  cases h with
  | @intro _ xs _ _ hattributes =>
    have hxs : AreLexical xs := fun t ht => hts t (by simp [ht])
    have hcomment : AreLexical (commentTokens comment) := fun t ht => hts t (by simp [ht])
    have hname := hts (.ident name) (by simp)
    have hline : Writes (indented (name.toList ++ attributesText attributes)) _ :=
      ((writes_name hname).append (hattributes.writes hxs)
        (breaks_attributesText attributes)).space.space
    have hink : EndsInk (name.toList ++ attributesText attributes) := by
      rcases hattributes.eq_nil_or_endsInk hxs with rfl | hend
      · simpa [attributesText] using endsInk_name hname
      · exact hend.append_left _
    rw [← hink.indented.trimEnd_eq] at hline
    simpa [EnumValue.line, EnumValue.tokens] using lineSpells_withComment hline hcomment

theorem IsSetting.lineSpells {ts : List TokenKind} {s : Setting} (h : IsSetting ts s)
    (hts : AreLexical ts) (keyWidth : UInt16) : LineSpells (s.line keyWidth) s.tokens := by
  obtain ⟨key, value, comment⟩ := s
  cases h with
  | @intro _ xs _ _ hvalue =>
    have hxs : AreLexical xs := fun t ht => hts t (by simp [ht])
    have hcomment : AreLexical (commentTokens comment) := fun t ht => hts t (by simp [ht])
    have hkey := (writes_name (hts (.ident key) (by simp))).padTo keyWidth
    have hvalueText := ((hvalue.writes hxs).space.punctuation (c := '=') rfl).space
    have hline : Writes (indented (padTo keyWidth key.toList ++
        ' ' :: '=' :: ' ' :: value.text)) _ :=
      (hkey.append hvalueText (breaks_space _)).space.space
    have hink : EndsInk (padTo keyWidth key.toList ++ ' ' :: '=' :: ' ' :: value.text) :=
      ((hvalue.endsInk hxs).append_left [' ', '=', ' ']).append_left _
    rw [← hink.indented.trimEnd_eq] at hline
    simpa [Setting.line, Setting.tokens] using lineSpells_withComment hline hcomment

theorem IsAttribute.lineSpells {ts : List TokenKind} {a : Attribute} (h : IsAttribute ts a)
    (hts : AreLexical ts) : LineSpells (blockAttributeLine a) (.atAt :: a.tokens) := by
  intro rest us hus
  have hattr := h.writes hts _ _ (breaks_newline rest) (spells_newline hus)
  exact ((spells_atAt hattr).blank (by decide) (by decide)).blank (by decide) (by decide)

end SchemaForge.Schema
