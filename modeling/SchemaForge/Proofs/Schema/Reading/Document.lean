import SchemaForge.Proofs.Schema.Reading.Line
import SchemaForge.Schema.Source

/-!
# Reading is derivation

The reader of documents accepts exactly what the grammar derives, and builds the tree of the
derivation.

## Main definitions

* `ItemRules.Reads` — the rules of a block against the relations that spell its lines.

## Main results

* `yields_readNamed` — a named block is read where it is spelled, and only there.
* `readBlocks_eq_ok_iff` — a row of tokens reads as exactly the declarations it spells.
* `ofTokens_eq_ok_iff` — the same of the tokens of a text.
-/

namespace SchemaForge.Schema

/-! ### Blocks -/

section

variable {ε α : Type} {rules : ItemRules ε α} {Entry : List TokenKind → ε → Prop}
  {Attr : List TokenKind → α → Prop}

/-- `rules.Reads Entry Attr` says the rules read the lines that `Entry` and `Attr` spell. -/
structure ItemRules.Reads (rules : ItemRules ε α) (Entry : List TokenKind → ε → Prop)
    (Attr : List TokenKind → α → Prop) : Prop where
  /-- Entries are read as they are spelled. -/
  entry : ReadsEntry rules.entry Entry
  /-- Every entry starts with a name. -/
  head : ∀ us e, Entry us e → ∃ name us', us = .ident name :: us'
  /-- The attributes of the whole block are attributes, where there are any. -/
  blockAttribute : ∀ us a, Attr us a ↔
    ∃ wrap, rules.blockAttribute = some wrap ∧ ∃ b, IsAttribute us b ∧ wrap b = a

theorem IsBody.ne_nil {ts : List TokenKind} {items : List (Item ε α)}
    (h : IsBody Entry Attr ts items) : ts ≠ [] := by
  induction h with
  | entry _ hend =>
    cases hend <;> simp
  | _ => simp

/-- The lines of a block are read where they are spelled. -/
theorem IsBody.yields (hrules : rules.Reads Entry Attr) {ts : List TokenKind}
    {items : List (Item ε α)} (h : IsBody Entry Attr ts items) (rest : List TokenKind) :
    Yields (readItems rules (ts ++ rest)) items rest := by
  induction h with
  | close =>
    rw [List.singleton_append, readItems]
    exact yields_ok.2 ⟨rfl, rfl⟩
  | newline _ ih =>
    rw [List.cons_append, readItems]
    exact ih.bind (yields_pure.2 ⟨rfl, rfl⟩)
  | comment text _ ih =>
    rw [List.cons_append, readItems]
    exact ih.bind (yields_pure.2 ⟨rfl, rfl⟩)
  | @entry us ts body e items he hend _ ih =>
    -- what ends the line of the entry ends it whatever stands behind the block
    have hread : Yields (rules.entry (us ++ (ts ++ rest))) e (body ++ rest) := by
      refine (hrules.entry _ _ _).2 ⟨us, ts ++ rest, rfl, he, .inl ?_⟩
      cases hend with
      | newline => exact .newline _
      | brace => exact .brace _
    obtain ⟨name, us', rfl⟩ := hrules.head us e he
    rw [List.append_assoc, List.cons_append, readItems]
    refine hread.bind ?_
    exact ih.bind (yields_pure.2 ⟨rfl, rfl⟩)
  | @blockAttribute us ts body a comment items ha hend _ ih =>
    obtain ⟨wrap, hwrap, b, hb, rfl⟩ := (hrules.blockAttribute us a).1 ha
    have hend : AtLineEnd (ts ++ rest) (body ++ rest) := by
      cases hend with
      | newline => exact .inl (.newline _)
      | brace => exact .inl (.brace _)
    have h₁ := hb.yields (hend.unextended comment).1
    have h₂ := hend.yields comment
    rw [List.cons_append, List.append_assoc, List.append_assoc, readItems, hwrap]
    refine h₁.bind ?_
    refine h₂.bind ?_
    exact ih.bind (yields_pure.2 ⟨rfl, rfl⟩)

/-- What is read as the lines of a block spells them. -/
theorem exists_isBody_of_yields (hrules : rules.Reads Entry Attr) {ts rest : List TokenKind}
    {items : List (Item ε α)} (h : Yields (readItems rules ts) items rest) :
    ∃ us, ts = us ++ rest ∧ IsBody Entry Attr us items := by
  induction hn : ts.length using Nat.strongRecOn generalizing ts items with
  | ind n ih =>
    rw [readItems.eq_def] at h
    split at h
    -- by induction on what is left; every line consumes a token
    · obtain ⟨rfl, rfl⟩ := yields_ok.1 h
      exact ⟨[.rbrace], rfl, .close⟩
    · obtain ⟨more, _, _, hmore, h⟩ := yields_bind.1 h
      obtain ⟨rfl, rfl⟩ := yields_pure.1 h
      obtain ⟨us, rfl, hus⟩ := ih _ (by rw [← hn]; simp) hmore rfl
      exact ⟨.newline :: us, rfl, .newline hus⟩
    · next text _ =>
      obtain ⟨more, _, _, hmore, h⟩ := yields_bind.1 h
      obtain ⟨rfl, rfl⟩ := yields_pure.1 h
      obtain ⟨us, rfl, hus⟩ := ih _ (by rw [← hn]; simp) hmore rfl
      exact ⟨.comment text :: us, rfl, .comment text hus⟩
    · obtain ⟨e, after, hlt, he, h⟩ := yields_bind.1 h
      obtain ⟨more, _, _, hmore, h⟩ := yields_bind.1 h
      obtain ⟨rfl, rfl⟩ := yields_pure.1 h
      -- an entry with the end of its line; a brace that ends the line is left for the block
      obtain ⟨us, xs, heq, hus, hend⟩ := (hrules.entry _ _ _).1 he
      obtain ⟨ys, rfl, hys⟩ := ih _ (by rw [← hn]; exact hlt) hmore rfl
      obtain ⟨zs, rfl, hzs⟩ := hend.exists_endsLine hys.ne_nil
      exact ⟨us ++ zs, by rw [heq, List.append_assoc], .entry hus hzs hys⟩
    · split at h
      · exact absurd h not_yields_error
      · next wrap hwrap =>
        obtain ⟨b, ts₁, hlt₁, hb, h⟩ := yields_bind.1 h
        obtain ⟨comment, ts₂, hlt₂, hcomment, h⟩ := yields_bind.1 h
        obtain ⟨more, _, _, hmore, h⟩ := yields_bind.1 h
        obtain ⟨rfl, rfl⟩ := yields_pure.1 h
        -- an attribute of the whole block, and the comment behind it
        obtain ⟨us, rfl, hus⟩ := exists_isAttribute_of_yields hb
        obtain ⟨xs, rfl, hend⟩ := yields_readCommentedEnd.1 hcomment
        obtain ⟨ys, rfl, hys⟩ := ih _ (by simp only [List.length_cons] at hn; omega) hmore rfl
        obtain ⟨zs, rfl, hzs⟩ := hend.exists_endsLine hys.ne_nil
        have ha := (hrules.blockAttribute us (wrap b)).2 ⟨wrap, hwrap, b, hus, rfl⟩
        exact ⟨.atAt :: (us ++ (commentTokens comment ++ zs)), by simp,
          .blockAttribute comment ha hzs hys⟩
    · exact absurd h not_yields_error

/-- A named block is read where it is spelled, and only there. -/
theorem yields_readNamed (hrules : rules.Reads Entry Attr) {ts rest : List TokenKind}
    {b : Named ε α} :
    Yields (readNamed rules ts) b rest ↔
      ∃ us, ts = .ident b.name :: .lbrace :: (us ++ rest) ∧ IsBody Entry Attr us b.items := by
  rw [readNamed]
  constructor
  · intro h
    obtain ⟨name, after, _, hname, h⟩ := yields_bind.1 h
    rw [yields_readName.1 hname]
    dsimp only at h
    split at h
    · obtain ⟨items, rest', _, hitems, h⟩ := yields_bind.1 h
      obtain ⟨rfl, rfl⟩ := yields_pure.1 h
      obtain ⟨us, rfl, hus⟩ := exists_isBody_of_yields hrules hitems
      exact ⟨us, rfl, hus⟩
    · exact absurd h not_yields_throw
  · rintro ⟨us, rfl, hus⟩
    have hread := hus.yields hrules rest
    refine (yields_readName.2 rfl).bind ?_
    exact hread.bind (yields_pure.2 ⟨rfl, rfl⟩)

end

theorem IsField.exists_head {ts : List TokenKind} {f : Field} (h : IsField ts f) :
    ∃ name us, ts = .ident name :: us := by
  cases h
  exact ⟨_, _, rfl⟩

theorem IsEnumValue.exists_head {ts : List TokenKind} {v : EnumValue} (h : IsEnumValue ts v) :
    ∃ name us, ts = .ident name :: us := by
  cases h
  exact ⟨_, _, rfl⟩

theorem IsSetting.exists_head {ts : List TokenKind} {s : Setting} (h : IsSetting ts s) :
    ∃ name us, ts = .ident name :: us := by
  cases h
  exact ⟨_, _, rfl⟩

theorem modelRules_reads : modelRules.Reads IsField IsAttribute where
  entry := readsEntry_readField
  head := fun _ _ => IsField.exists_head
  blockAttribute := by simp [modelRules]

theorem enumRules_reads : enumRules.Reads IsEnumValue IsAttribute where
  entry := readsEntry_readEnumValue
  head := fun _ _ => IsEnumValue.exists_head
  blockAttribute := by simp [enumRules]

theorem settingsRules_reads : settingsRules.Reads IsSetting fun _ _ => False where
  entry := readsEntry_readSetting
  head := fun _ _ => IsSetting.exists_head
  blockAttribute := by simp [settingsRules]

/-- A reader of named blocks under a constructor of blocks. -/
theorem yields_wrapped {ε α : Type} {ts rest : List TokenKind}
    {r : Result (Named ε α) ts} {wrap : Named ε α → Block} {b : Block} :
    Yields (do let ⟨m, rest, h⟩ ← r; return ⟨wrap m, rest, h⟩ : Result Block ts) b rest ↔
      ∃ m, b = wrap m ∧ Yields r m rest := by
  rw [yields_bind]
  constructor
  · rintro ⟨m, us, _, hm, h⟩
    obtain ⟨rfl, rfl⟩ := yields_pure.1 h
    exact ⟨m, rfl, hm⟩
  · rintro ⟨m, rfl, hm⟩
    exact ⟨m, rest, hm.length_lt, hm, yields_pure.2 ⟨rfl, rfl⟩⟩

/-- What is read after a keyword spells a block. -/
theorem exists_isBlock_of_yields {keyword : String} {ts rest : List TokenKind} {b : Block}
    {r : Result Block ts} (hr : readBlockAfter keyword ts = some r) (h : Yields r b rest) :
    ∃ us, ts = us ++ rest ∧ IsBlock (.ident keyword :: us) b := by
  have hmodel : ∀ kind, Yields (readBlockAfter.model ts kind) b rest →
      ∃ us, ts = us ++ rest ∧ IsBlock (.ident kind.keyword :: us) b := by
    intro kind h
    obtain ⟨m, rfl, hm⟩ := yields_wrapped.1 h
    obtain ⟨us, rfl, hus⟩ := (yields_readNamed modelRules_reads).1 hm
    exact ⟨_, rfl, .model kind m.name hus⟩
  have hsettings : ∀ kind, Yields (readBlockAfter.settings ts kind) b rest →
      ∃ us, ts = us ++ rest ∧ IsBlock (.ident kind.keyword :: us) b := by
    intro kind h
    obtain ⟨m, rfl, hm⟩ := yields_wrapped.1 h
    obtain ⟨us, rfl, hus⟩ := (yields_readNamed settingsRules_reads).1 hm
    exact ⟨_, rfl, .settings kind m.name hus⟩
  rw [readBlockAfter.eq_def] at hr
  split at hr <;> cases hr
  · exact hmodel .model h
  · exact hmodel .composite h
  · exact hmodel .view h
  · obtain ⟨e, rfl, he⟩ := yields_wrapped.1 h
    obtain ⟨us, rfl, hus⟩ := (yields_readNamed enumRules_reads).1 he
    exact ⟨_, rfl, .enumeration e.name hus⟩
  · exact hsettings .datasource h
  · exact hsettings .generator h

/-- A block is read after its keyword where it is spelled. -/
theorem IsBlock.exists_yields {us : List TokenKind} {b : Block} (h : IsBlock us b)
    (rest : List TokenKind) :
    ∃ keyword ts r, us ++ rest = .ident keyword :: ts ∧ readBlockAfter keyword ts = some r ∧
      Yields r b rest := by
  cases h with
  | @model kind name ts items hbody =>
    have hread : Yields (readNamed modelRules (.ident name :: .lbrace :: (ts ++ rest)))
        ⟨name, items⟩ rest := (yields_readNamed modelRules_reads).2 ⟨ts, rfl, hbody⟩
    refine ⟨kind.keyword, _, readBlockAfter.model _ kind, rfl, by cases kind <;> rfl, ?_⟩
    exact yields_wrapped.2 ⟨_, rfl, hread⟩
  | @enumeration name ts items hbody =>
    have hread : Yields (readNamed enumRules (.ident name :: .lbrace :: (ts ++ rest)))
        ⟨name, items⟩ rest := (yields_readNamed enumRules_reads).2 ⟨ts, rfl, hbody⟩
    exact ⟨enumKeyword, _, _, rfl, rfl, yields_wrapped.2 ⟨_, rfl, hread⟩⟩
  | @settings kind name ts items hbody =>
    have hread : Yields (readNamed settingsRules (.ident name :: .lbrace :: (ts ++ rest)))
        ⟨name, items⟩ rest := (yields_readNamed settingsRules_reads).2 ⟨ts, rfl, hbody⟩
    refine ⟨kind.keyword, _, readBlockAfter.settings _ kind, rfl, by cases kind <;> rfl, ?_⟩
    exact yields_wrapped.2 ⟨_, rfl, hread⟩

/-! ### Whole schemas -/

theorem bind_eq_ok {ε α β : Type} {r : Except ε α} {f : α → Except ε β} {b : β} :
    r >>= f = .ok b ↔ ∃ a, r = .ok a ∧ f a = .ok b := by
  cases r with
  | error e =>
    constructor
    · intro h
      cases h
    · rintro ⟨_, h, _⟩
      cases h
  | ok a =>
    constructor
    · intro h
      exact ⟨a, rfl, h⟩
    · rintro ⟨a', h, hf⟩
      cases h
      exact hf

/-- **A row of tokens reads as exactly the declarations it spells.** -/
theorem readBlocks_eq_ok_iff {ts : List TokenKind} {bs : List Block} :
    readBlocks ts = .ok bs ↔ IsSchema ts bs := by
  constructor
  · intro h
    induction hn : ts.length using Nat.strongRecOn generalizing ts bs with
    | ind n ih =>
      rw [readBlocks.eq_def] at h
      split at h
      · cases h
        exact .nil
      · exact .newline (ih _ (by rw [← hn]; simp) h rfl)
      · next text us =>
        obtain ⟨more, hmore, h⟩ := bind_eq_ok.1 h
        cases h
        exact .comment text (ih _ (by rw [← hn]; simp) hmore rfl)
      · next keyword us =>
        split at h
        · cases h
        · next r hr =>
          obtain ⟨⟨b, after, hlt⟩, hb, h⟩ := bind_eq_ok.1 h
          obtain ⟨more, hmore, h⟩ := bind_eq_ok.1 h
          cases h
          -- the reader of the keyword consumes the block, so the rest is shorter
          obtain ⟨xs, rfl, hxs⟩ := exists_isBlock_of_yields hr ⟨hlt, hb⟩
          simp only [List.length_cons] at hn
          exact .block hxs (ih _ (by omega) hmore rfl)
      · cases h
  · intro h
    induction h with
    | nil => rw [readBlocks]
    | newline _ ih => rw [readBlocks, ih]
    | comment text _ ih =>
      rw [readBlocks, ih]
      rfl
    | @block us ts b bs hb _ ih =>
      obtain ⟨keyword, xs, r, heq, hr, hlt, rfl⟩ := hb.exists_yields ts
      rw [heq, readBlocks, hr]
      exact bind_eq_ok.2 ⟨_, rfl, bind_eq_ok.2 ⟨bs, ih, rfl⟩⟩

theorem ofKinds_eq_ok_iff {ts : List TokenKind} {d : Document} :
    Document.ofKinds ts = .ok d ↔ IsSchema ts d.blocks := by
  rw [← readBlocks_eq_ok_iff, Document.ofKinds]
  cases readBlocks ts with
  | error f => simp [Except.map]
  | ok bs =>
    simp only [Except.map, Except.ok.injEq]
    constructor
    · rintro rfl
      rfl
    · rintro rfl
      rfl

/-- A fault is given a place, and a document is passed on as it is. -/
theorem ofTokens_eq_ok {row : TokenRow} {d : Document} :
    Document.ofTokens row = .ok d ↔ Document.ofKinds row.kinds = .ok d := by
  rw [Document.ofTokens]
  cases Document.ofKinds row.kinds <;> simp

/-- **The tokens of a text spell the document that is read from them, and no other.**  Reading
succeeds exactly where the grammar derives the tokens. -/
theorem ofTokens_eq_ok_iff (row : TokenRow) (d : Document) :
    Document.ofTokens row = .ok d ↔ IsSchema row.kinds d.blocks := by
  rw [ofTokens_eq_ok, ofKinds_eq_ok_iff]

end SchemaForge.Schema
