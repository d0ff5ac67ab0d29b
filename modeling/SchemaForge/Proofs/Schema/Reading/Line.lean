import SchemaForge.Proofs.Schema.Reading.Value

/-!
# Reading lines

The readers of attributes, of the ends of lines and of the entries of a block.  A reader of
entries takes the end of the line with it; `ReadsEntry` says so once for the three kinds of entry.

## Main definitions

* `AtLineEnd` — the end of a line as a reader sees it.
* `ReadsEntry` — a reader of entries against the relation that spells them.

## Main results

* `exists_isAttribute_of_yields`, `IsAttribute.yields` — attributes.
* `readsEntry_readField`, `readsEntry_readEnumValue`, `readsEntry_readSetting` — entries.
-/

namespace SchemaForge.Schema

/-! ### Attributes -/

theorem yields_readName {ts rest : List TokenKind} {name : String} :
    Yields (readName ts) name rest ↔ ts = .ident name :: rest := by
  rw [readName.eq_def]
  split
  · simp
  · next hne =>
    constructor
    · intro h
      exact absurd h not_yields_error
    · intro h
      exact absurd h (hne name rest)

theorem yields_readDottedName_dot {front part name : String} {ts rest : List TokenKind} :
    Yields (readDottedName front (.dot :: .ident part :: ts)) name rest ↔
      Yields (readDottedName (front ++ "." ++ part) ts) name rest := by
  rw [readDottedName, yields_bind]
  constructor
  · rintro ⟨part', after, _, hpart, h⟩
    obtain ⟨name', rest', _, hname, h⟩ := yields_bind.1 h
    obtain ⟨rfl, rfl⟩ := yields_pure.1 h
    cases yields_readName.1 hpart
    exact hname
  · intro h
    refine ⟨part, ts, by simp, yields_readName.2 rfl, ?_⟩
    exact h.bind (yields_pure.2 ⟨rfl, rfl⟩)

theorem exists_isDottedName_of_yields {front name : String} {ts us rest : List TokenKind}
    (hfront : IsDottedName us front) (h : Yields (readDottedName front ts) name rest) :
    ∃ xs, ts = xs ++ rest ∧ IsDottedName (us ++ xs) name := by
  fun_induction readDottedName front ts generalizing us with
  | case1 front behind ih =>
    obtain ⟨part, after, hlt, hpart, h⟩ := yields_bind.1 h
    obtain ⟨name', rest', _, hname, h⟩ := yields_bind.1 h
    obtain ⟨rfl, rfl⟩ := yields_pure.1 h
    obtain ⟨xs, rfl, hxs⟩ := ih part after hlt (hfront.snoc part) hname
    rw [yields_readName.1 hpart]
    exact ⟨.dot :: .ident part :: xs, rfl, by simpa using hxs⟩
  | case2 front ts _ =>
    obtain ⟨rfl, rfl⟩ := yields_ok.1 h
    exact ⟨[], rfl, by simpa using hfront⟩

/-- A dotted name starts with a name, and reading on from that name comes to the whole. -/
theorem IsDottedName.exists_first {ts : List TokenKind} {name : String}
    (h : IsDottedName ts name) :
    ∃ first us, ts = .ident first :: us ∧ ∀ xs whole rest,
      Yields (readDottedName first (us ++ xs)) whole rest ↔
        Yields (readDottedName name xs) whole rest := by
  induction h with
  | single name => exact ⟨name, [], rfl, fun xs whole rest => Iff.rfl⟩
  | snoc part _ ih =>
    obtain ⟨first, us, rfl, ih⟩ := ih
    refine ⟨first, us ++ [.dot, .ident part], rfl, fun xs whole rest => ?_⟩
    rw [List.append_assoc, ih]
    exact yields_readDottedName_dot

/-- What is read as an attribute spells it. -/
theorem exists_isAttribute_of_yields {ts rest : List TokenKind} {a : Attribute}
    (h : Yields (readAttribute ts) a rest) : ∃ us, ts = us ++ rest ∧ IsAttribute us a := by
  rw [readAttribute] at h
  obtain ⟨first, after, _, hfirst, h⟩ := yields_bind.1 h
  obtain ⟨name, after', _, hname, h⟩ := yields_bind.1 h
  rw [yields_readName.1 hfirst]
  obtain ⟨xs, rfl, hxs⟩ := exists_isDottedName_of_yields (.single first) hname
  dsimp only at h
  split at h
  · next behind =>
    obtain ⟨args, rest', _, hargs, h⟩ := yields_bind.1 h
    obtain ⟨rfl, rfl⟩ := yields_pure.1 h
    obtain ⟨us, rfl, hus⟩ := exists_arguments_of_yields hargs
    exact ⟨_, by simp, .applied hxs hus⟩
  · obtain ⟨rfl, rfl⟩ := yields_pure.1 h
    exact ⟨_, rfl, .bare hxs⟩

/-- An attribute is read where it is spelled. -/
theorem IsAttribute.yields {ts : List TokenKind} {a : Attribute} (h : IsAttribute ts a)
    {rest : List TokenKind} (hrest : Unextended rest) :
    Yields (readAttribute (ts ++ rest)) a rest := by
  -- the name comes first, whatever follows it but a dot
  have hname : ∀ {us name} (xs : List TokenKind), IsDottedName us name → (∀ ys, xs ≠ .dot :: ys) →
      ∃ first ys, us ++ xs = .ident first :: ys ∧ Yields (readDottedName first ys) name xs := by
    intro us name xs hus hxs
    obtain ⟨first, ys, rfl, hread⟩ := hus.exists_first
    refine ⟨first, ys ++ xs, rfl, (hread xs name xs).2 ?_⟩
    rw [readDottedName.eq_2 _ _ hxs]
    exact yields_ok.2 ⟨rfl, rfl⟩
  cases h with
  | bare hdotted =>
    obtain ⟨first, ys, heq, hread⟩ := hname rest hdotted fun _ => hrest.ne_cons rfl
    rw [heq, readAttribute]
    refine (yields_readName.2 rfl).bind ?_
    refine hread.bind ?_
    dsimp only
    split
    · exact absurd rfl (hrest.ne_cons (t := .lparen) rfl)
    · exact yields_pure.2 ⟨rfl, rfl⟩
  | applied hdotted hargs =>
    have hread := yields_readArguments_of_commaList hargs rest
    rw [List.append_assoc, List.cons_append, List.append_assoc, List.singleton_append]
    obtain ⟨first, ys, heq, hdots⟩ := hname (.lparen :: (_ ++ .rparen :: rest)) hdotted (by simp)
    rw [heq, readAttribute]
    refine (yields_readName.2 rfl).bind ?_
    refine hdots.bind ?_
    exact hread.bind (yields_pure.2 ⟨rfl, rfl⟩)

/-- What is read as attributes spells them. -/
theorem exists_areAttributes_of_yields {ts rest : List TokenKind} {as : List Attribute}
    (h : Yields (readAttributes ts) as rest) : ∃ us, ts = us ++ rest ∧ AreAttributes us as := by
  fun_induction readAttributes ts generalizing as with
  | case1 behind ih =>
    obtain ⟨a, after, hlt, ha, h⟩ := yields_bind.1 h
    obtain ⟨as', rest', _, has, h⟩ := yields_bind.1 h
    obtain ⟨rfl, rfl⟩ := yields_pure.1 h
    obtain ⟨us, rfl, hus⟩ := exists_isAttribute_of_yields ha
    obtain ⟨xs, rfl, hxs⟩ := ih after hlt has
    exact ⟨.at :: (us ++ xs), by simp, .cons hus hxs⟩
  | case2 ts _ =>
    obtain ⟨rfl, rfl⟩ := yields_ok.1 h
    exact ⟨[], rfl, .nil⟩

/-- Attributes are read where they are spelled, when no mark follows. -/
theorem AreAttributes.yields {ts : List TokenKind} {as : List Attribute} (h : AreAttributes ts as)
    {rest : List TokenKind} (hrest : Unextended rest) (hat : ∀ us, rest ≠ .at :: us) :
    Yields (readAttributes (ts ++ rest)) as rest := by
  induction h with
  | nil =>
    rw [List.nil_append, readAttributes]
    · exact yields_ok.2 ⟨rfl, rfl⟩
    · exact hat
  | @cons us ts a as ha htail ih =>
    have hread : Yields (readAttribute (us ++ (ts ++ rest))) a (ts ++ rest) := by
      refine ha.yields ?_
      cases htail with
      | nil => exact hrest
      | cons => exact unextended_cons.2 rfl
    rw [List.cons_append, List.append_assoc, readAttributes]
    refine hread.bind ?_
    exact ih.bind (yields_pure.2 ⟨rfl, rfl⟩)

/-! ### The ends of lines -/

/-- How a reader sees the end of a line: the end of the input is one too, but no block ends
there. -/
def AtLineEnd (ts rest : List TokenKind) : Prop :=
  EndsLine ts rest ∨ ts = [] ∧ rest = []

/-- Where lines follow, a line ends as it does without what follows them. -/
theorem AtLineEnd.exists_endsLine {ts us rest : List TokenKind} (h : AtLineEnd ts (us ++ rest))
    (hne : us ≠ []) : ∃ xs, ts = xs ++ rest ∧ EndsLine xs us := by
  obtain ⟨t, us, rfl⟩ := List.exists_cons_of_ne_nil hne
  rcases h with h | ⟨-, h⟩
  · cases h with
    | newline => exact ⟨.newline :: t :: us, rfl, .newline _⟩
    | brace => exact ⟨.rbrace :: us, rfl, .brace us⟩
  · cases h

/-- The tokens that a line may end in front of. -/
theorem AtLineEnd.head_cases {ts rest : List TokenKind} (h : AtLineEnd ts rest) :
    (∃ us, ts = .newline :: us) ∨ (∃ us, ts = .rbrace :: us) ∨ ts = [] := by
  rcases h with h | ⟨rfl, -⟩
  · cases h with
    | newline => exact .inl ⟨_, rfl⟩
    | brace => exact .inr (.inl ⟨_, rfl⟩)
  · exact .inr (.inr rfl)

/-- What follows the attributes of a line belongs to none of them. -/
theorem AtLineEnd.unextended {ts rest : List TokenKind} (h : AtLineEnd ts rest)
    (comment : Option String) : Unextended (commentTokens comment ++ ts) ∧
      ∀ us, commentTokens comment ++ ts ≠ .at :: us := by
  cases comment with
  | some text => exact ⟨unextended_cons.2 rfl, by simp [commentTokens]⟩
  | none =>
    rcases h.head_cases with ⟨us, rfl⟩ | ⟨us, rfl⟩ | rfl <;>
      simp [commentTokens, TokenKind.extends]

theorem yields_readLineEnd {ts rest : List TokenKind} :
    Yields (readLineEnd ts) () rest ↔ AtLineEnd ts rest := by
  rw [readLineEnd.eq_def]
  split
  · next us =>
    rw [yields_ok]
    constructor
    · rintro ⟨-, rfl⟩
      exact .inl (.newline us)
    · rintro (h | ⟨h, -⟩)
      · cases h; exact ⟨rfl, rfl⟩
      · cases h
  · next us =>
    rw [yields_ok]
    constructor
    · rintro ⟨-, rfl⟩
      exact .inl (.brace us)
    · rintro (h | ⟨h, -⟩)
      · cases h; exact ⟨rfl, rfl⟩
      · cases h
  · rw [yields_ok]
    constructor
    · rintro ⟨-, rfl⟩
      exact .inr ⟨rfl, rfl⟩
    · rintro (h | ⟨-, rfl⟩)
      · cases h
      · exact ⟨rfl, rfl⟩
  · next hnewline hbrace hnil =>
    constructor
    · intro h
      exact absurd h not_yields_error
    · intro h
      rcases h.head_cases with ⟨us, h⟩ | ⟨us, h⟩ | h
      · exact absurd h (hnewline us)
      · exact absurd h (hbrace us)
      · exact absurd h hnil

/-- The end of a line is read with the comment in front of it. -/
theorem yields_readCommentedEnd {ts rest : List TokenKind} {comment : Option String} :
    Yields (readCommentedEnd ts) comment rest ↔
      ∃ us, ts = commentTokens comment ++ us ∧ AtLineEnd us rest := by
  rw [readCommentedEnd.eq_def]
  split
  · next text us =>
    constructor
    · intro h
      obtain ⟨⟨⟩, after, _, hend, h⟩ := yields_bind.1 h
      obtain ⟨rfl, rfl⟩ := yields_pure.1 h
      exact ⟨us, rfl, yields_readLineEnd.1 hend⟩
    · rintro ⟨vs, heq, hend⟩
      cases comment with
      | some text' =>
        cases heq
        have hread := yields_readLineEnd.2 hend
        exact hread.bind (yields_pure.2 ⟨rfl, rfl⟩)
      | none =>
        subst heq
        rcases hend.head_cases with ⟨_, h⟩ | ⟨_, h⟩ | h <;> cases h
  · next hne =>
    constructor
    · intro h
      obtain ⟨⟨⟩, after, _, hend, h⟩ := yields_bind.1 h
      obtain ⟨rfl, rfl⟩ := yields_pure.1 h
      exact ⟨ts, rfl, yields_readLineEnd.1 hend⟩
    · rintro ⟨vs, rfl, hend⟩
      cases comment with
      | some text => exact absurd rfl (hne text vs)
      | none =>
        have hread := yields_readLineEnd.2 hend
        exact hread.bind (yields_pure.2 ⟨rfl, rfl⟩)

theorem AtLineEnd.yields {ts rest : List TokenKind} (h : AtLineEnd ts rest)
    (comment : Option String) :
    Yields (readCommentedEnd (commentTokens comment ++ ts)) comment rest :=
  yields_readCommentedEnd.2 ⟨ts, rfl, h⟩

/-! ### Entries -/

/-- The tokens that may follow the type of a field and what stands behind it. -/
def TokenKind.followsType : TokenKind → Bool
  | .at => true
  | .comment _ => true
  | .newline => true
  | .rbrace => true
  | _ => false

/-- Attributes, a comment and the end of a line hold nothing that belongs to the type in front. -/
theorem AreAttributes.followsType {ts xs rest : List TokenKind} {as : List Attribute}
    (h : AreAttributes ts as) (comment : Option String) (hend : AtLineEnd xs rest) :
    ∀ t ∈ (ts ++ (commentTokens comment ++ xs)).head?, t.followsType = true := by
  intro t ht
  cases h with
  | cons => cases ht; rfl
  | nil =>
    cases comment with
    | some text => cases ht; rfl
    | none => rcases hend.head_cases with ⟨us, rfl⟩ | ⟨us, rfl⟩ | rfl <;> cases ht <;> rfl

theorem ne_cons_of_followsType {ts us : List TokenKind}
    (h : ∀ t ∈ ts.head?, t.followsType = true) {t : TokenKind} (ht : t.followsType = false) :
    ts ≠ t :: us := by
  rintro rfl
  have := h t rfl
  rw [ht] at this
  cases this

theorem unextended_of_followsType {ts : List TokenKind}
    (h : ∀ t ∈ ts.head?, t.followsType = true) : Unextended ts := by
  intro t ht
  have := h t ht
  cases t <;> first | rfl | cases this

/-- What is read as a type spells it. -/
theorem exists_isFieldType_of_yields {ts rest : List TokenKind} {type : FieldType}
    (h : Yields (readFieldType ts) type rest) : ∃ us, ts = us ++ rest ∧ IsFieldType us type := by
  rw [readFieldType] at h
  obtain ⟨name, after, _, hname, h⟩ := yields_bind.1 h
  rw [yields_readName.1 hname]
  dsimp only at h
  split at h
  · split at h
    · next hunsupported =>
      split at h
      · obtain ⟨rfl, rfl⟩ := yields_pure.1 h
        rw [hunsupported]
        exact ⟨_, rfl, .unsupported _⟩
      · exact absurd h not_yields_throw
      · exact absurd h not_yields_throw
    · obtain ⟨rfl, rfl⟩ := yields_pure.1 h
      exact ⟨[.ident name], rfl, .named name⟩
  · obtain ⟨rfl, rfl⟩ := yields_pure.1 h
    exact ⟨[.ident name], rfl, .named name⟩

/-- A type is read where it is spelled. -/
theorem IsFieldType.yields {ts : List TokenKind} {type : FieldType} (h : IsFieldType ts type)
    {rest : List TokenKind} (hrest : Unextended rest) :
    Yields (readFieldType (ts ++ rest)) type rest := by
  rw [readFieldType]
  cases h with
  | named name =>
    have hname : Yields (readName ([.ident name] ++ rest)) name rest := yields_readName.2 rfl
    refine hname.bind ?_
    dsimp only
    split
    · exact absurd rfl (hrest.ne_cons (t := .lparen) rfl)
    · exact yields_pure.2 ⟨rfl, rfl⟩
  | unsupported native => exact (yields_readName.2 rfl).bind (yields_pure.2 ⟨rfl, rfl⟩)

theorem eq_modifierTokens_append_of_yields {ts rest : List TokenKind} {modifier : Option Modifier}
    (h : Yields (readModifier ts) modifier rest) : ts = modifierTokens modifier ++ rest := by
  rw [readModifier.eq_def] at h
  split at h
  · obtain ⟨rfl, rfl⟩ := yields_ok.1 h
    rfl
  · obtain ⟨rfl, rfl⟩ := yields_ok.1 h
    rfl
  · exact absurd h not_yields_error
  · obtain ⟨rfl, rfl⟩ := yields_ok.1 h
    rfl

theorem yields_readModifier (modifier : Option Modifier) {rest : List TokenKind}
    (hrest : ∀ t ∈ rest.head?, t.followsType = true) :
    Yields (readModifier (modifierTokens modifier ++ rest)) modifier rest := by
  match modifier with
  | some .optional => exact yields_ok.2 ⟨rfl, rfl⟩
  | some .list => exact yields_ok.2 ⟨rfl, rfl⟩
  | none =>
    rw [modifierTokens, List.nil_append, readModifier]
    · exact yields_ok.2 ⟨rfl, rfl⟩
    · exact fun us => ne_cons_of_followsType hrest rfl
    · exact fun us => ne_cons_of_followsType hrest rfl
    · exact fun us => ne_cons_of_followsType hrest rfl

/-- `ReadsEntry read Entry` says `read` reads what `Entry` spells, and then the end of a line. -/
def ReadsEntry {ε : Type} (read : (ts : List TokenKind) → Result ε ts)
    (Entry : List TokenKind → ε → Prop) : Prop :=
  ∀ ts e rest, Yields (read ts) e rest ↔
    ∃ us xs, ts = us ++ xs ∧ Entry us e ∧ AtLineEnd xs rest

theorem readsEntry_readField : ReadsEntry readField IsField := by
  intro ts f rest
  constructor
  · intro h
    rw [readField] at h
    obtain ⟨name, ts₁, _, hname, h⟩ := yields_bind.1 h
    obtain ⟨type, ts₂, _, htype, h⟩ := yields_bind.1 h
    obtain ⟨modifier, ts₃, _, hmodifier, h⟩ := yields_bind.1 h
    obtain ⟨attributes, ts₄, _, hattributes, h⟩ := yields_bind.1 h
    obtain ⟨comment, ts₅, _, hcomment, h⟩ := yields_bind.1 h
    obtain ⟨rfl, rfl⟩ := yields_pure.1 h
    obtain ⟨us, rfl, hus⟩ := exists_isFieldType_of_yields htype
    obtain ⟨vs, rfl, hvs⟩ := exists_areAttributes_of_yields hattributes
    obtain ⟨xs, rfl, hxs⟩ := yields_readCommentedEnd.1 hcomment
    rw [yields_readName.1 hname, eq_modifierTokens_append_of_yields hmodifier]
    exact ⟨_, xs, by simp, .intro name modifier comment hus hvs, hxs⟩
  · rintro ⟨us, xs, rfl, hf, hend⟩
    cases hf with
    | @intro name us ts type modifier attributes comment htype hattributes =>
      have hfollows := hattributes.followsType comment hend
      obtain ⟨hunext, hat⟩ := hend.unextended comment
      have hunext' : Unextended
          (modifierTokens modifier ++ (ts ++ (commentTokens comment ++ xs))) := by
        match modifier with
        | some .optional => exact unextended_cons.2 rfl
        | some .list => exact unextended_cons.2 rfl
        | none => exact unextended_of_followsType hfollows
      have h₂ := htype.yields hunext'
      have h₃ := yields_readModifier modifier hfollows
      have h₄ := hattributes.yields hunext hat
      have h₅ := hend.yields comment
      have heq : TokenKind.ident name :: (us ++ (modifierTokens modifier ++
          (ts ++ commentTokens comment))) ++ xs = .ident name :: (us ++ (modifierTokens modifier ++
          (ts ++ (commentTokens comment ++ xs)))) := by
        simp only [List.cons_append, List.append_assoc]
      rw [heq, readField]
      refine (yields_readName.2 rfl).bind ?_
      refine h₂.bind ?_
      refine h₃.bind ?_
      refine h₄.bind ?_
      exact h₅.bind (yields_pure.2 ⟨rfl, rfl⟩)

theorem readsEntry_readEnumValue : ReadsEntry readEnumValue IsEnumValue := by
  intro ts v rest
  constructor
  · intro h
    rw [readEnumValue] at h
    obtain ⟨name, ts₁, _, hname, h⟩ := yields_bind.1 h
    obtain ⟨attributes, ts₂, _, hattributes, h⟩ := yields_bind.1 h
    obtain ⟨comment, ts₃, _, hcomment, h⟩ := yields_bind.1 h
    obtain ⟨rfl, rfl⟩ := yields_pure.1 h
    obtain ⟨us, rfl, hus⟩ := exists_areAttributes_of_yields hattributes
    obtain ⟨xs, rfl, hxs⟩ := yields_readCommentedEnd.1 hcomment
    rw [yields_readName.1 hname]
    exact ⟨_, xs, by simp, .intro name comment hus, hxs⟩
  · rintro ⟨us, xs, rfl, hv, hend⟩
    cases hv with
    | @intro name ts attributes comment hattributes =>
      obtain ⟨hunext, hat⟩ := hend.unextended comment
      have h₂ := hattributes.yields hunext hat
      have h₃ := hend.yields comment
      rw [List.cons_append, List.append_assoc, readEnumValue]
      refine (yields_readName.2 rfl).bind ?_
      refine h₂.bind ?_
      exact h₃.bind (yields_pure.2 ⟨rfl, rfl⟩)

theorem readsEntry_readSetting : ReadsEntry readSetting IsSetting := by
  intro ts s rest
  constructor
  · intro h
    rw [readSetting] at h
    obtain ⟨key, ts₁, _, hkey, h⟩ := yields_bind.1 h
    rw [yields_readName.1 hkey]
    dsimp only at h
    split at h
    · obtain ⟨value, ts₂, _, hvalue, h⟩ := yields_bind.1 h
      obtain ⟨comment, ts₃, _, hcomment, h⟩ := yields_bind.1 h
      obtain ⟨rfl, rfl⟩ := yields_pure.1 h
      obtain ⟨us, rfl, hus⟩ := exists_isValue_of_yields hvalue
      obtain ⟨xs, rfl, hxs⟩ := yields_readCommentedEnd.1 hcomment
      exact ⟨_, xs, by simp, .intro key comment hus, hxs⟩
    · exact absurd h not_yields_throw
  · rintro ⟨us, xs, rfl, hs, hend⟩
    cases hs with
    | @intro key ts value comment hvalue =>
      have h₂ := hvalue.yields (hend.unextended comment).1
      have h₃ := hend.yields comment
      rw [List.cons_append, List.cons_append, List.append_assoc, readSetting]
      refine (yields_readName.2 rfl).bind ?_
      refine h₂.bind ?_
      exact h₃.bind (yields_pure.2 ⟨rfl, rfl⟩)

end SchemaForge.Schema
