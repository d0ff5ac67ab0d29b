import SchemaForge.Proofs.Schema.Derivation

/-!
# The canonical tokens of a document

Every part of a document has one spelling that its layout aims at: no line ends inside brackets,
no comma behind the last element, no empty parentheses behind an attribute.  A part that has a
spelling at all has its canonical one; only line ends are left to the layout.

## Main definitions

* `commaTokens` — elements with single commas between them.
* `Value.tokens`, `Attribute.tokens`, `Field.tokens` — the parts of a line.
* `Item.tokens`, `Block.tokens` — a line of a block, and a block without the ends of its lines.
* `IsItem` — the spelling of one line of a block.

## Main results

* `IsValue.tokens`, `IsAttribute.tokens`, `IsField.tokens` — parts of lines are spelled by their
  canonical tokens.
* `IsBody.exists_of_mem`, `IsItem.isBody` — a block is spelled when each of its lines is.
-/

namespace SchemaForge.Schema

/-! ### Lists with commas -/

section

variable {α : Type}

/-- Elements with single commas between them. -/
def commaTokens (tokens : α → List TokenKind) : List α → List TokenKind
  | [] => []
  | [a] => tokens a
  | a :: as => tokens a ++ .comma :: commaTokens tokens as

variable {P Q : List TokenKind → α → Prop}

theorem commaList_commaTokens {tokens : α → List TokenKind} {as : List α}
    (h : ∀ a ∈ as, P (tokens a) a) : CommaList P (commaTokens tokens as) as := by
  induction as with
  | nil => exact .empty 0
  | cons a as ih =>
    have ha := h a (List.mem_cons_self ..)
    cases as with
    | nil => simpa [commaTokens] using CommaList.single 0 0 ha
    | cons b bs =>
      have htail := ih fun c hc => h c (List.mem_cons_of_mem _ hc)
      simpa [commaTokens] using CommaList.cons 0 0 ha htail

theorem CommaTail.exists_of_mem {ts : List TokenKind} {as : List α} (h : CommaTail P ts as)
    {a : α} (ha : a ∈ as) : ∃ us, us ⊆ ts ∧ P us a := by
  induction h with
  | done n => cases ha
  | trailing m n => cases ha
  | more m n hp _ ih =>
    rcases List.mem_cons.1 ha with rfl | ha
    · exact ⟨_, fun t ht => by simp [ht], hp⟩
    · obtain ⟨us, hsub, hus⟩ := ih ha
      exact ⟨us, fun t ht => by simp [hsub ht], hus⟩

/-- Every element of a list has its spelling among the tokens of the list. -/
theorem CommaList.exists_of_mem {ts : List TokenKind} {as : List α} (h : CommaList P ts as)
    {a : α} (ha : a ∈ as) : ∃ us, us ⊆ ts ∧ P us a := by
  cases h with
  | empty n => cases ha
  | elements n hp ht =>
    rcases List.mem_cons.1 ha with rfl | ha
    · exact ⟨_, fun t ht => by simp [ht], hp⟩
    · obtain ⟨us, hsub, hus⟩ := ht.exists_of_mem ha
      exact ⟨us, fun t ht => by simp [hsub ht], hus⟩

end

/-! ### Values and arguments -/

/-- The tokens in front of an argument's value. -/
def argumentMarkTokens : Option String → List TokenKind
  | some name => [.ident name, .colon]
  | none => []

mutual

/-- The tokens of a value as it is written. -/
def Value.tokens : Value → List TokenKind
  | .string s => [.str s]
  | .number n => [.number n]
  | .boolean true => [.ident "true"]
  | .boolean false => [.ident "false"]
  | .ident name => [.ident name]
  | .array vs => .lbracket :: (valuesTokens vs ++ [.rbracket])
  | .call name args => .ident name :: .lparen :: (argumentsTokens args ++ [.rparen])

/-- The tokens of values with commas between them. -/
def valuesTokens : List Value → List TokenKind
  | [] => []
  | [v] => v.tokens
  | v :: vs => v.tokens ++ .comma :: valuesTokens vs

/-- The tokens of arguments with commas between them. -/
def argumentsTokens : List (Argument Value) → List TokenKind
  | [] => []
  | [⟨name, v⟩] => argumentMarkTokens name ++ v.tokens
  | ⟨name, v⟩ :: args => argumentMarkTokens name ++ v.tokens ++ .comma :: argumentsTokens args

end

/-- The tokens of an argument as it is written. -/
def Argument.tokens (a : Argument Value) : List TokenKind :=
  argumentMarkTokens a.name ++ a.value.tokens

theorem valuesTokens_eq (vs : List Value) : valuesTokens vs = commaTokens Value.tokens vs := by
  induction vs with
  | nil => rfl
  | cons v vs ih =>
    cases vs with
    | nil => rfl
    | cons w ws => rw [valuesTokens, commaTokens, ih] <;> simp

theorem argumentsTokens_eq (args : List (Argument Value)) :
    argumentsTokens args = commaTokens Argument.tokens args := by
  induction args with
  | nil => rfl
  | cons a as ih =>
    cases as with
    | nil => rfl
    | cons b bs => rw [argumentsTokens, commaTokens, ih, Argument.tokens] <;> simp

theorem tokens_ofName (name : String) : (Value.ofName name).tokens = [.ident name] := by
  rw [Value.ofName.eq_def]
  split <;> simp [Value.tokens]

/-- A value that has a spelling has its canonical one. -/
theorem IsValue.tokens {ts : List TokenKind} {v : Value} (h : IsValue ts v) :
    IsValue v.tokens v := by
  induction h using IsValue.induction with
  | string s => exact .string s
  | number n => exact .number n
  | name n =>
    rw [tokens_ofName]
    exact .name n
  | call name ts args _ ih =>
    rw [Value.tokens, argumentsTokens_eq]
    refine .call name (commaList_commaTokens fun a ha => ?_)
    obtain ⟨us, -, hus⟩ := ih.exists_of_mem ha
    cases hus with
    | positional hv => exact .positional hv.2
    | named name hv => exact .named name hv.2
  | array ts vs _ ih =>
    rw [Value.tokens, valuesTokens_eq]
    refine .array (commaList_commaTokens fun v hv => ?_)
    obtain ⟨us, -, _, hv⟩ := ih.exists_of_mem hv
    exact hv

theorem IsArgument.tokens {ts : List TokenKind} {a : Argument Value}
    (h : IsArgument IsValue ts a) : IsArgument IsValue a.tokens a := by
  cases h with
  | positional hv => exact .positional hv.tokens
  | named name hv => exact .named name hv.tokens

theorem commaList_argumentsTokens {ts : List TokenKind} {args : List (Argument Value)}
    (h : CommaList (IsArgument IsValue) ts args) :
    CommaList (IsArgument IsValue) (argumentsTokens args) args := by
  rw [argumentsTokens_eq]
  refine commaList_commaTokens fun a ha => ?_
  obtain ⟨us, -, hus⟩ := h.exists_of_mem ha
  exact hus.tokens

/-! ### Attributes -/

/-- The tokens of a dotted name: its parts, and a dot between any two. -/
def dottedTokens (name : String) : List TokenKind :=
  ((name.toList.splitOn '.').map fun part => .ident (String.ofList part)).intersperse .dot

/-- A name token without a dot in it; the dots of a dotted name are tokens of their own. -/
def TokenKind.Undotted (t : TokenKind) : Prop :=
  ∀ name, t = .ident name → '.' ∉ name.toList

theorem intersperse_concat {α : Type} (sep a : α) {l : List α} (h : l ≠ []) :
    (l ++ [a]).intersperse sep = l.intersperse sep ++ [sep, a] := by
  induction l with
  | nil => exact absurd rfl h
  | cons b l ih =>
    cases l with
    | nil => rfl
    | cons c l =>
      have := ih (by simp)
      simp only [List.cons_append] at this
      simp [List.intersperse, this]

/-- The parts of a dotted name can be told from the name, since no part has a dot. -/
theorem IsDottedName.eq_dottedTokens {ts : List TokenKind} {name : String}
    (h : IsDottedName ts name) (hts : ∀ t ∈ ts, t.Undotted) : ts = dottedTokens name := by
  induction h with
  | single name =>
    have hdot : '.' ∉ name.toList := hts _ (List.mem_singleton_self _) name rfl
    simp [dottedTokens, List.splitOn_eq_singleton hdot]
  | @snoc ts front part _ ih =>
    have hdot : '.' ∉ part.toList := hts (.ident part) (by simp) part rfl
    have hsplit : (front ++ "." ++ part).toList.splitOn '.' =
        front.toList.splitOn '.' ++ [part.toList] := by
      rw [← List.splitOn_eq_singleton hdot, ← List.splitOn_append_cons_self]
      simp
    rw [ih fun t ht => hts t (List.mem_append_left _ ht), dottedTokens, dottedTokens, hsplit,
      List.map_append, List.map_singleton, intersperse_concat]
    · simp
    · simp [List.splitOn_ne_nil]

/-- The tokens of an attribute behind its mark; parentheses stand only around arguments. -/
def Attribute.tokens (a : Attribute) : List TokenKind :=
  dottedTokens a.name ++
    if a.args.isEmpty then [] else .lparen :: (argumentsTokens a.args ++ [.rparen])

/-- The tokens of the attributes of a line. -/
def attributesTokens (as : List Attribute) : List TokenKind :=
  as.flatMap fun a => .at :: a.tokens

theorem IsAttribute.tokens {ts : List TokenKind} {a : Attribute} (h : IsAttribute ts a)
    (hts : ∀ t ∈ ts, t.Undotted) : IsAttribute a.tokens a := by
  cases h with
  | bare hname =>
    rw [Attribute.tokens, ← hname.eq_dottedTokens hts]
    simpa using IsAttribute.bare hname
  | @applied ts us name args hname hargs =>
    rw [Attribute.tokens, ← hname.eq_dottedTokens fun t ht => hts t (List.mem_append_left _ ht)]
    cases args with
    | nil => simpa using IsAttribute.bare hname
    | cons a as => exact .applied hname (commaList_argumentsTokens hargs)

theorem AreAttributes.tokens {ts : List TokenKind} {as : List Attribute}
    (h : AreAttributes ts as) (hts : ∀ t ∈ ts, t.Undotted) :
    AreAttributes (attributesTokens as) as := by
  induction h with
  | nil => exact .nil
  | cons ha _ ih =>
    refine .cons (ha.tokens fun t ht => hts t ?_) (ih fun t ht => hts t ?_)
    · simp [ht]
    · simp [ht]

/-! ### Entries -/

/-- The tokens of the type of a field. -/
def FieldType.tokens : FieldType → List TokenKind
  | named name => [.ident name]
  | unsupported native => [.ident unsupportedName, .lparen, .str native, .rparen]

/-- The tokens of a field and its comment. -/
def Field.tokens (f : Field) : List TokenKind :=
  .ident f.name :: (f.type.tokens ++ (modifierTokens f.modifier ++
    (attributesTokens f.attributes ++ commentTokens f.comment)))

/-- The tokens of a value of an enumeration and its comment. -/
def EnumValue.tokens (v : EnumValue) : List TokenKind :=
  .ident v.name :: (attributesTokens v.attributes ++ commentTokens v.comment)

/-- The tokens of a setting and its comment. -/
def Setting.tokens (s : Setting) : List TokenKind :=
  .ident s.key :: .equals :: (s.value.tokens ++ commentTokens s.comment)

theorem IsFieldType.eq_tokens {ts : List TokenKind} {type : FieldType} (h : IsFieldType ts type) :
    ts = type.tokens := by
  cases h <;> rfl

theorem IsField.tokens {ts : List TokenKind} {f : Field} (h : IsField ts f)
    (hts : ∀ t ∈ ts, t.Undotted) : IsField f.tokens f := by
  cases h with
  | intro name modifier comment htype hattributes =>
    rw [Field.tokens, ← htype.eq_tokens]
    exact .intro name modifier comment htype (hattributes.tokens fun t ht => hts t (by simp [ht]))

theorem IsEnumValue.tokens {ts : List TokenKind} {v : EnumValue} (h : IsEnumValue ts v)
    (hts : ∀ t ∈ ts, t.Undotted) : IsEnumValue v.tokens v := by
  cases h with
  | intro name comment hattributes =>
    exact .intro name comment (hattributes.tokens fun t ht => hts t (by simp [ht]))

theorem IsSetting.tokens {ts : List TokenKind} {s : Setting} (h : IsSetting ts s) :
    IsSetting s.tokens s := by
  cases h with
  | intro key comment hvalue => exact .intro key comment hvalue.tokens

/-! ### Lines and blocks -/

section

variable {ε α : Type}

/-- The tokens of a line of a block, without the end of the line. -/
def Item.tokens (entry : ε → List TokenKind) (attr : α → List TokenKind) :
    Item ε α → List TokenKind
  | .entry e => entry e
  | .blockAttribute a => .atAt :: attr a
  | .comment text => [.comment text]

/-- One line of a block, without its end.  A comment behind a block attribute counts as a line of
its own. -/
inductive IsItem (Entry : List TokenKind → ε → Prop) (Attr : List TokenKind → α → Prop) :
    List TokenKind → Item ε α → Prop
  /-- An entry. -/
  | entry {ts : List TokenKind} {e : ε} : Entry ts e → IsItem Entry Attr ts (.entry e)
  /-- An attribute of the whole block. -/
  | blockAttribute {ts : List TokenKind} {a : α} :
      Attr ts a → IsItem Entry Attr (.atAt :: ts) (.blockAttribute a)
  /-- A comment. -/
  | comment (text : String) : IsItem Entry Attr [.comment text] (.comment text)

variable {Entry : List TokenKind → ε → Prop} {Attr : List TokenKind → α → Prop}
  {entry : ε → List TokenKind} {attr : α → List TokenKind}

/-- A line with its end in front of the lines of a block. -/
theorem IsItem.isBody {us ts : List TokenKind} {item : Item ε α} {items : List (Item ε α)}
    (h : IsItem Entry Attr us item) (hbody : IsBody Entry Attr ts items) :
    IsBody Entry Attr (us ++ .newline :: ts) (item :: items) := by
  cases h with
  | entry he => exact .entry he (.newline ts) hbody
  | blockAttribute ha => exact .blockAttribute none ha (.newline ts) hbody
  | comment text => exact .comment text (.newline hbody)

theorem EndsLine.subset {ts rest : List TokenKind} (h : EndsLine ts rest) : rest ⊆ ts := by
  cases h with
  | newline => exact List.subset_cons_self ..
  | brace => exact fun t ht => ht

/-- Every line of a block has its spelling among the tokens of the block. -/
theorem IsBody.exists_of_mem {ts : List TokenKind} {items : List (Item ε α)}
    (h : IsBody Entry Attr ts items) {item : Item ε α} (hitem : item ∈ items) :
    ∃ us, us ⊆ ts ∧ IsItem Entry Attr us item := by
  induction h with
  | close => cases hitem
  | newline _ ih =>
    obtain ⟨us, hsub, hus⟩ := ih hitem
    exact ⟨us, List.subset_cons_of_subset _ hsub, hus⟩
  | comment text _ ih =>
    rcases List.mem_cons.1 hitem with rfl | hitem
    · exact ⟨[.comment text], by simp, .comment text⟩
    · obtain ⟨us, hsub, hus⟩ := ih hitem
      exact ⟨us, List.subset_cons_of_subset _ hsub, hus⟩
  | entry he hend _ ih =>
    rcases List.mem_cons.1 hitem with rfl | hitem
    · exact ⟨_, List.subset_append_left .., .entry he⟩
    · obtain ⟨us, hsub, hus⟩ := ih hitem
      exact ⟨us, fun t ht => by simp [hend.subset (hsub ht)], hus⟩
  | @blockAttribute us ts rest a comment items ha hend _ ih =>
    have hline : ∃ xs, xs ⊆ .atAt :: (us ++ (commentTokens comment ++ ts)) ∧
        IsItem Entry Attr xs (.blockAttribute a) :=
      ⟨.atAt :: us, List.cons_subset_cons _ (List.subset_append_left ..), .blockAttribute ha⟩
    have hbehind : item ∈ items → ∃ xs, xs ⊆ .atAt :: (us ++ (commentTokens comment ++ ts)) ∧
        IsItem Entry Attr xs item := by
      intro hitem
      obtain ⟨xs, hsub, hxs⟩ := ih hitem
      exact ⟨xs, fun t ht => by simp [hend.subset (hsub ht)], hxs⟩
    cases comment with
    | none =>
      rcases List.mem_cons.1 hitem with rfl | hitem
      · exact hline
      · exact hbehind hitem
    | some text =>
      rcases List.mem_cons.1 hitem with rfl | hitem
      · exact hline
      rcases List.mem_cons.1 hitem with rfl | hitem
      · exact ⟨[.comment text], by simp [commentTokens], .comment text⟩
      · exact hbehind hitem

end

/-- The tokens of a block: its head, its items, its closing brace. -/
def blockTokens (keyword name : String) (items : List (List TokenKind)) : List TokenKind :=
  .ident keyword :: .ident name :: .lbrace :: (items.flatten ++ [.rbrace])

/-- The tokens of a block, without the ends of its lines. -/
def Block.tokens : Block → List TokenKind
  | model kind m =>
    blockTokens kind.keyword m.name (m.items.map (Item.tokens Field.tokens Attribute.tokens))
  | enumeration e =>
    blockTokens enumKeyword e.name (e.items.map (Item.tokens EnumValue.tokens Attribute.tokens))
  | settings kind s =>
    blockTokens kind.keyword s.name (s.items.map (Item.tokens Setting.tokens Empty.elim))
  | comment text => [.comment text]

/-- The tokens of a document, without the ends of its lines. -/
def Document.tokens (d : Document) : List TokenKind :=
  d.blocks.flatMap Block.tokens

end SchemaForge.Schema
