import SchemaForge.Proofs.Schema.Reading.Document
import SchemaForge.Proofs.Schema.Significant
import SchemaForge.Proofs.Schema.Widths
import SchemaForge.Proofs.Schema.Writing

/-!
# A document read back from its text

The text of a document is scanned into tokens that spell the document again.  Blank lines stand
where the layout puts them, so it is not the canonical tokens alone that are scanned; between the
lines of a block, and between blocks, any number of line ends spells the same.

## Main definitions

* `LineByLine` — lines that items stand on one by one, with blank lines between them.

## Main results

* `exists_spells_blocksLines` — the lines of a document spell the document.
* `ofSource_text` — **a text that is laid out again says what it said.**
* `significant_ofSource_text` — **laying out keeps every significant token in its place.**
-/

namespace SchemaForge.Schema

open Text

/-! ### Lines one after the other -/

@[simp] theorem joinLines_nil : joinLines [] = [] := rfl

@[simp] theorem joinLines_cons (line : List Char) (lines : List (List Char)) :
    joinLines (line :: lines) = line ++ '\n' :: joinLines lines := by
  simp [joinLines]

@[simp] theorem joinLines_append (lines lines' : List (List Char)) :
    joinLines (lines ++ lines') = joinLines lines ++ joinLines lines' :=
  List.flatMap_append

section

variable {ι : Type}

/-- Items on lines of their own, in order; blank lines may stand anywhere. -/
inductive LineByLine (Line : List Char → ι → Prop) : List (List Char) → List ι → Prop
  /-- No line. -/
  | nil : LineByLine Line [] []
  /-- A blank line. -/
  | blank {lines : List (List Char)} {items : List ι} :
      LineByLine Line lines items → LineByLine Line ([] :: lines) items
  /-- An item on its line. -/
  | item {line : List Char} {i : ι} {lines : List (List Char)} {items : List ι} :
      Line line i → LineByLine Line lines items → LineByLine Line (line :: lines) (i :: items)

end

section

variable {ε α : Type} {Entry : List TokenKind → ε → Prop} {Attr : List TokenKind → α → Prop}

/-- The line spells the item. -/
def ItemLine (Entry : List TokenKind → ε → Prop) (Attr : List TokenKind → α → Prop)
    (line : List Char) (item : Item ε α) : Prop :=
  ∃ ts, LineSpells line ts ∧ IsItem Entry Attr ts item

/-- Lines that spell their items spell a block, with the closing brace behind them. -/
theorem LineByLine.exists_isBody {lines : List (List Char)} {items : List (Item ε α)}
    (h : LineByLine (ItemLine Entry Attr) lines items) {rest : List Char} {us : List TokenKind}
    (hrest : Spells rest us) :
    ∃ ts, Spells (joinLines (lines ++ [['\x7d']]) ++ rest) (ts ++ .newline :: us) ∧
      IsBody Entry Attr ts items := by
  induction h with
  | nil =>
    exact ⟨[.rbrace], spells_punctuation rfl (spells_newline hrest), .close⟩
  | blank _ ih =>
    obtain ⟨ts, hts, hbody⟩ := ih
    refine ⟨.newline :: ts, ?_, .newline hbody⟩
    simpa using spells_newline hts
  | item hline _ ih =>
    obtain ⟨ts, hts, hbody⟩ := ih
    obtain ⟨xs, hxs, hitem⟩ := hline
    refine ⟨xs ++ .newline :: ts, ?_, hitem.isBody hbody⟩
    simpa using hxs _ _ hts

end

/-! ### The lines of blocks -/

/-- The item is spelled by tokens that carry texts of lexemes. -/
def ItemSpelled {ε α : Type} (Entry : List TokenKind → ε → Prop)
    (Attr : List TokenKind → α → Prop) (item : Item ε α) : Prop :=
  ∃ ts, IsItem Entry Attr ts item ∧ AreLexical ts

theorem IsBody.itemSpelled {ε α : Type} {Entry : List TokenKind → ε → Prop}
    {Attr : List TokenKind → α → Prop} {ts : List TokenKind} {items : List (Item ε α)}
    (h : IsBody Entry Attr ts items) (hts : AreLexical ts) :
    ∀ item ∈ items, ItemSpelled Entry Attr item := by
  intro item hitem
  obtain ⟨us, hsub, hus⟩ := h.exists_of_mem hitem
  exact ⟨us, hus, fun t ht => hts t (hsub ht)⟩

theorem itemLine_comment {ε α : Type} {Entry : List TokenKind → ε → Prop}
    {Attr : List TokenKind → α → Prop} {text : String}
    (h : ItemSpelled Entry Attr (.comment text)) :
    ItemLine Entry Attr (indented text.toList) (.comment text) := by
  obtain ⟨ts, hitem, hts⟩ := h
  cases hitem
  exact ⟨_, lineSpells_comment (hts _ (by simp)), .comment text⟩

theorem itemLine_blockAttribute {ε : Type} {Entry : List TokenKind → ε → Prop} {a : Attribute}
    (h : ItemSpelled Entry IsAttribute (.blockAttribute a)) :
    ItemLine Entry IsAttribute (blockAttributeLine a) (.blockAttribute a) := by
  obtain ⟨ts, hitem, hts⟩ := h
  cases hitem with
  | blockAttribute ha =>
    have hlexical : AreLexical _ := fun t ht => hts t (List.mem_cons_of_mem _ ht)
    exact ⟨_, ha.lineSpells hlexical, .blockAttribute (ha.tokens hlexical.undotted)⟩

theorem lineByLine_modelItemLines (nameWidth typeWidth : UInt16) (afterField : Bool)
    {items : List (Item Field Attribute)}
    (h : ∀ item ∈ items, ItemSpelled IsField IsAttribute item) :
    LineByLine (ItemLine IsField IsAttribute)
      (modelItemLines nameWidth typeWidth afterField items) items := by
  induction items generalizing afterField with
  | nil => exact .nil
  | cons item items ih =>
    have hitem := h item (List.mem_cons_self ..)
    have hitems := fun after => ih after fun i hi => h i (List.mem_cons_of_mem _ hi)
    cases item with
    | entry f =>
      obtain ⟨ts, hf, hts⟩ := hitem
      cases hf with
      | entry hf =>
        have hline := hf.lineSpells hts nameWidth typeWidth
        exact .item ⟨_, hline, .entry (hf.tokens hts.undotted)⟩ (hitems true)
    | blockAttribute a =>
      -- a blank line stands in front when a field has come since the last one
      have hrest := LineByLine.item (itemLine_blockAttribute hitem) (hitems false)
      cases afterField with
      | false => exact hrest
      | true => exact .blank hrest
    | comment text => exact .item (itemLine_comment hitem) (hitems afterField)

theorem lineByLine_enumItemLines {items : List (Item EnumValue Attribute)}
    (h : ∀ item ∈ items, ItemSpelled IsEnumValue IsAttribute item) :
    LineByLine (ItemLine IsEnumValue IsAttribute) (items.flatMap enumItemLines) items := by
  induction items with
  | nil => exact .nil
  | cons item items ih =>
    have hitem := h item (List.mem_cons_self ..)
    have hitems := ih fun i hi => h i (List.mem_cons_of_mem _ hi)
    cases item with
    | entry v =>
      obtain ⟨ts, hv, hts⟩ := hitem
      cases hv with
      | entry hv => exact .item ⟨_, hv.lineSpells hts, .entry (hv.tokens hts.undotted)⟩ hitems
    | blockAttribute a => exact .blank (.item (itemLine_blockAttribute hitem) hitems)
    | comment text => exact .item (itemLine_comment hitem) hitems

theorem lineByLine_settingItemLine (keyWidth : UInt16) {items : List (Item Setting Empty)}
    (h : ∀ item ∈ items, ItemSpelled IsSetting (fun _ _ => False) item) :
    LineByLine (ItemLine IsSetting fun _ _ => False) (items.map (settingItemLine keyWidth))
      items := by
  induction items with
  | nil => exact .nil
  | cons item items ih =>
    have hitem := h item (List.mem_cons_self ..)
    have hitems := ih fun i hi => h i (List.mem_cons_of_mem _ hi)
    cases item with
    | entry s =>
      obtain ⟨ts, hs, hts⟩ := hitem
      cases hs with
      | entry hs => exact .item ⟨_, hs.lineSpells hts keyWidth, .entry hs.tokens⟩ hitems
    | blockAttribute a => exact a.elim
    | comment text => exact .item (itemLine_comment hitem) hitems

theorem lexical_modelKeyword (kind : ModelKind) : (TokenKind.ident kind.keyword).Lexical := by
  cases kind
  · exact ⟨'m', "odel".toList, rfl, by decide, List.all_eq_true.1 (by decide)⟩
  · exact ⟨'t', "ype".toList, rfl, by decide, List.all_eq_true.1 (by decide)⟩
  · exact ⟨'v', "iew".toList, rfl, by decide, List.all_eq_true.1 (by decide)⟩

theorem lexical_settingsKeyword (kind : SettingsKind) :
    (TokenKind.ident kind.keyword).Lexical := by
  cases kind
  · exact ⟨'d', "atasource".toList, rfl, by decide, List.all_eq_true.1 (by decide)⟩
  · exact ⟨'g', "enerator".toList, rfl, by decide, List.all_eq_true.1 (by decide)⟩

theorem lexical_enumKeyword : (TokenKind.ident enumKeyword).Lexical :=
  ⟨'e', "num".toList, rfl, by decide, List.all_eq_true.1 (by decide)⟩

/-- The head of a block in front of its lines. -/
theorem spells_blockLines {keyword name : String} {lines : List (List Char)} {rest : List Char}
    {ts us : List TokenKind} (hkeyword : (TokenKind.ident keyword).Lexical)
    (hname : (TokenKind.ident name).Lexical)
    (h : Spells (joinLines (lines ++ [['\x7d']]) ++ rest) (ts ++ us)) :
    Spells (joinLines (blockLines keyword name lines) ++ rest)
      (.ident keyword :: .ident name :: .lbrace :: .newline :: ts ++ us) := by
  have hbrace : Spells ('\x7b' :: '\n' :: (joinLines (lines ++ [['\x7d']]) ++ rest))
      (.lbrace :: .newline :: (ts ++ us)) := spells_punctuation rfl (spells_newline h)
  have hhead := writes_name hname _ _ (breaks_space _) (hbrace.blank (by decide) (by decide))
  have hline := writes_name hkeyword _ _ (breaks_space _) (hhead.blank (by decide) (by decide))
  simpa [blockLines] using hline

/-- **The lines of a block spell the block.** -/
theorem IsBlock.exists_spells_lines {ts : List TokenKind} {b : Block} (h : IsBlock ts b)
    (hts : AreLexical ts) {lines : List (List Char)} (hlines : b.lines = .ok lines)
    {rest : List Char} {us : List TokenKind} (hrest : Spells rest us) :
    ∃ xs, Spells (joinLines lines ++ rest) (xs ++ .newline :: us) ∧ IsBlock xs b := by
  cases h with
  | @model kind name ts items hbody =>
    obtain ⟨nameWidth, typeWidth, -, -, rfl⟩ := modelLines_eq_ok_iff.1 hlines
    have hitems := hbody.itemSpelled fun t ht => hts t (by simp [ht])
    obtain ⟨xs, hxs, hbody⟩ :=
      (lineByLine_modelItemLines nameWidth typeWidth false hitems).exists_isBody hrest
    have hname : (TokenKind.ident name).Lexical := hts _ (by simp)
    exact ⟨_, spells_blockLines (lexical_modelKeyword kind) hname hxs,
      .model kind name (.newline hbody)⟩
  | @enumeration name ts items hbody =>
    obtain rfl := Except.ok.inj hlines
    have hitems := hbody.itemSpelled fun t ht => hts t (by simp [ht])
    obtain ⟨xs, hxs, hbody⟩ := (lineByLine_enumItemLines hitems).exists_isBody hrest
    have hname : (TokenKind.ident name).Lexical := hts _ (by simp)
    exact ⟨_, spells_blockLines lexical_enumKeyword hname hxs, .enumeration name (.newline hbody)⟩
  | @settings kind name ts items hbody =>
    obtain ⟨keyWidth, -, rfl⟩ := settingsLines_eq_ok_iff.1 hlines
    have hitems := hbody.itemSpelled fun t ht => hts t (by simp [ht])
    obtain ⟨xs, hxs, hbody⟩ := (lineByLine_settingItemLine keyWidth hitems).exists_isBody hrest
    have hname : (TokenKind.ident name).Lexical := hts _ (by simp)
    exact ⟨_, spells_blockLines (lexical_settingsKeyword kind) hname hxs,
      .settings kind name (.newline hbody)⟩

/-! ### Whole documents -/

/-- The block is a comment or is spelled, by tokens that carry texts of lexemes. -/
def Block.Spelled : Block → Prop
  | .comment text => (TokenKind.comment text).Lexical
  | b => ∃ ts, IsBlock ts b ∧ AreLexical ts

theorem IsBlock.spelled {ts : List TokenKind} {b : Block} (h : IsBlock ts b)
    (hts : AreLexical ts) : b.Spelled := by
  cases h with
  | model kind name hbody => exact ⟨_, .model kind name hbody, hts⟩
  | enumeration name hbody => exact ⟨_, .enumeration name hbody, hts⟩
  | settings kind name hbody => exact ⟨_, .settings kind name hbody, hts⟩

theorem IsSchema.spelled {ts : List TokenKind} {bs : List Block} (h : IsSchema ts bs)
    (hts : AreLexical ts) : ∀ b ∈ bs, b.Spelled := by
  induction h with
  | nil => simp
  | newline _ ih => exact ih fun t ht => hts t (by simp [ht])
  | comment text _ ih =>
    intro b hb
    rcases List.mem_cons.1 hb with rfl | hb
    · exact hts _ (List.mem_cons_self ..)
    · exact ih (fun t ht => hts t (by simp [ht])) b hb
  | block hblock _ ih =>
    intro b hb
    rcases List.mem_cons.1 hb with rfl | hb
    · exact hblock.spelled fun t ht => hts t (by simp [ht])
    · exact ih (fun t ht => hts t (by simp [ht])) b hb

/-- The lines of a block, in front of the text of other blocks. -/
theorem Block.Spelled.exists_isSchema {b : Block} (h : b.Spelled) {lines : List (List Char)}
    (hlines : b.lines = .ok lines) {bs : List Block} {rest : List Char} {us : List TokenKind}
    (hrest : Spells rest us) (hus : IsSchema us bs) :
    ∃ xs, Spells (joinLines lines ++ rest) xs ∧ IsSchema xs (b :: bs) := by
  have hblock : ∀ {ts}, IsBlock ts b → AreLexical ts →
      ∃ xs, Spells (joinLines lines ++ rest) xs ∧ IsSchema xs (b :: bs) := by
    intro ts hb hts
    obtain ⟨xs, hxs, hb⟩ := hb.exists_spells_lines hts hlines hrest
    exact ⟨_, hxs, .block hb (.newline hus)⟩
  cases b with
  | model kind m =>
    obtain ⟨ts, hb, hts⟩ := h
    exact hblock hb hts
  | enumeration e =>
    obtain ⟨ts, hb, hts⟩ := h
    exact hblock hb hts
  | settings kind s =>
    obtain ⟨ts, hb, hts⟩ := h
    exact hblock hb hts
  | comment text =>
    obtain rfl := Except.ok.inj hlines
    have htext := spells_comment h (spells_newline hrest)
    exact ⟨_, by simpa using htext, .comment text (.newline hus)⟩

/-- **The lines of spelled blocks spell them**, blank lines between them or not. -/
theorem exists_spells_blocksLines {bs : List Block} (h : ∀ b ∈ bs, b.Spelled)
    {lines : List (List Char)} (hlines : blocksLines bs = .ok lines) :
    ∃ xs, Spells (joinLines lines) xs ∧ IsSchema xs bs := by
  induction bs generalizing lines with
  | nil =>
    obtain rfl := Except.ok.inj hlines
    exact ⟨[], spells_nil, .nil⟩
  | cons b bs ih =>
    have hb := h b (List.mem_cons_self ..)
    cases bs with
    | nil => simpa using hb.exists_isSchema hlines spells_nil .nil
    | cons c cs =>
      obtain ⟨front, back, hfront, hback, rfl⟩ := blocksLines_eq_ok_iff.1 hlines
      obtain ⟨us, hus, hbs⟩ := ih (fun c hc => h c (List.mem_cons_of_mem _ hc)) hback
      -- a blank line stands between two blocks, unless the first is a comment
      rw [joinLines_append, joinLines_append, List.append_assoc, Block.gap]
      split
      · exact hb.exists_isSchema hfront hus hbs
      · exact hb.exists_isSchema hfront (spells_newline hus) (.newline hbs)

/-! ### Reading a text back -/

theorem tokenRow_ofSource_eq_ok {source : String} {row : TokenRow} :
    TokenRow.ofSource source = .ok row ↔ scanFrom .start source.toList = .ok row := by
  rw [TokenRow.ofSource, TokenRow.ofText]
  cases scanFrom .start source.toList <;> simp

theorem ofSource_eq_ok {source : String} {d : Document} :
    Document.ofSource source = .ok d ↔
      ∃ row, TokenRow.ofSource source = .ok row ∧ IsSchema row.kinds d.blocks := by
  simp only [Document.ofSource, bind_eq_ok, ofTokens_eq_ok, ofKinds_eq_ok_iff]

theorem ofCheckedSource_eq_ok {source : String} {d : Document} :
    Document.ofCheckedSource source = .ok d ↔
      Document.ofSource source = .ok d ∧ d.checked = .ok d := by
  simp only [Document.ofCheckedSource, bind_eq_ok]
  constructor
  · rintro ⟨d', hd', hchecked⟩
    -- a checked document is the document itself
    have heq : d' = d := by
      rw [Document.checked] at hchecked
      split at hchecked
      · cases hchecked
      · exact Except.ok.inj hchecked
    subst heq
    exact ⟨hd', hchecked⟩
  · rintro ⟨hd, hchecked⟩
    exact ⟨d, hd, hchecked⟩

/-- A text that spells a document is read as the document. -/
theorem ofSource_of_spells {source : String} {ts : List TokenKind} {d : Document}
    (h : Spells source.toList ts) (hd : IsSchema ts d.blocks) :
    Document.ofSource source = .ok d := by
  obtain ⟨row, hrow, rfl⟩ := h .start
  exact ofSource_eq_ok.2 ⟨row, tokenRow_ofSource_eq_ok.2 hrow, hd⟩

/-- A document that was read is spelled by tokens that carry texts of lexemes. -/
theorem exists_row_of_ofSource {source : String} {d : Document}
    (h : Document.ofSource source = .ok d) :
    ∃ row, TokenRow.ofSource source = .ok row ∧ IsSchema row.kinds d.blocks ∧
      AreLexical row.kinds := by
  obtain ⟨row, hrow, hschema⟩ := ofSource_eq_ok.1 h
  exact ⟨row, hrow, hschema, lexical_of_scanFrom (tokenRow_ofSource_eq_ok.1 hrow)⟩

theorem spelled_of_ofSource {source : String} {d : Document}
    (h : Document.ofSource source = .ok d) : ∀ b ∈ d.blocks, b.Spelled := by
  obtain ⟨row, -, hschema, hlexical⟩ := exists_row_of_ofSource h
  exact hschema.spelled hlexical

/-- The text of a document that was read is scanned into tokens that spell it. -/
theorem exists_row_of_text {source text : String} {d : Document}
    (h : Document.ofSource source = .ok d) (htext : d.text = .ok text) :
    ∃ row, TokenRow.ofSource text = .ok row ∧ IsSchema row.kinds d.blocks ∧
      AreLexical row.kinds := by
  obtain ⟨lines, hlines, rfl⟩ := Document.text_eq_ok_iff.1 htext
  obtain ⟨us, hus, hschema⟩ := exists_spells_blocksLines (spelled_of_ofSource h) hlines
  rw [← String.toList_ofList (l := joinLines lines)] at hus
  exact exists_row_of_ofSource (ofSource_of_spells hus hschema)

theorem ofSource_of_text {source text : String} {d : Document}
    (h : Document.ofSource source = .ok d) (htext : d.text = .ok text) :
    Document.ofSource text = .ok d := by
  obtain ⟨row, hrow, hschema, -⟩ := exists_row_of_text h htext
  exact ofSource_eq_ok.2 ⟨row, hrow, hschema⟩

/-- A document whose names are declared once is read from its text with the same check. -/
theorem ofCheckedSource_of_text {source text : String} {d : Document}
    (h : Document.ofCheckedSource source = .ok d) (htext : d.text = .ok text) :
    Document.ofCheckedSource text = .ok d := by
  rw [ofCheckedSource_eq_ok] at h ⊢
  exact ⟨ofSource_of_text h.1 htext, h.2⟩

/-- **A text that is laid out again says what it said.**  The canonical text of a document that
was read is read as the same document, and names that were declared once still are.  There is such a
text unless something in a column is too wide for it. -/
theorem ofSource_text {source : String} {d : Document} (h : Document.ofSource source = .ok d) :
    d.TextSatisfies fun text => Document.ofSource text = .ok d ∧
      (Document.ofCheckedSource source = .ok d → Document.ofCheckedSource text = .ok d) := by
  refine Document.textSatisfies_of_forall fun text htext => ?_
  exact ⟨ofSource_of_text h htext, fun hchecked => ofCheckedSource_of_text hchecked htext⟩

/-- A schema with line ends and last commas inside brackets, parentheses without arguments, and a
comment behind a block attribute. -/
def sampleSource : String :=
  "// users\nmodel User \x7b\n  id Int @id(\n) @default(f([1, 2,],),)\n" ++
    "  @@map(\"users\") // kept\n\x7d\n"

/-- What that schema says. -/
def sampleDocument : Document :=
  ⟨[.comment "// users", .model .model ⟨"User",
    [.entry ⟨"id", .named "Int", none, [⟨"id", []⟩,
      ⟨"default", [⟨none, .call "f" [⟨none, .array [.number "1", .number "2"]⟩]⟩]⟩], none⟩,
      .blockAttribute ⟨"map", [⟨none, .string "users"⟩]⟩, .comment "// kept"]⟩]⟩

theorem ofSource_sampleSource : Document.ofSource sampleSource = .ok sampleDocument := by
  cbv

theorem ofSource_text_sample :
    Document.ofCheckedSource sampleSource = .ok sampleDocument ∧ sampleDocument.FitsColumns ∧
      ∃ text, sampleDocument.text = .ok text ∧ Document.ofSource text = .ok sampleDocument ∧
        Document.ofCheckedSource text = .ok sampleDocument := by
  have hfits : sampleDocument.FitsColumns := by decide +kernel
  have hchecked : Document.ofCheckedSource sampleSource = .ok sampleDocument :=
    ofCheckedSource_eq_ok.2 ⟨ofSource_sampleSource, by cbv⟩
  obtain ⟨text, htext, hread, hagain⟩ := (ofSource_text ofSource_sampleSource).fits hfits
  exact ⟨hchecked, hfits, text, htext, hread, hagain hchecked⟩

/-- A block of one line is read as what the line says. -/
theorem ofSource_blockLines {keyword name : String} {line : List Char} {ts : List TokenKind}
    {b : Block} (hkeyword : (TokenKind.ident keyword).Lexical)
    (hname : (TokenKind.ident name).Lexical) (hline : LineSpells line ts)
    (hb : IsBlock (.ident keyword :: .ident name :: .lbrace :: .newline ::
      (ts ++ [.newline, .rbrace])) b) :
    Document.ofSource (String.ofList (joinLines (blockLines keyword name [line]))) = .ok ⟨[b]⟩ := by
  have hbrace : Spells ['\x7d', '\n'] [.rbrace, .newline] :=
    spells_punctuation rfl (spells_newline spells_nil)
  have hbody : Spells (joinLines ([line] ++ [['\x7d']]) ++ [])
      ((ts ++ [.newline, .rbrace]) ++ [.newline]) := by
    simpa using hline _ _ hbrace
  have hblock := spells_blockLines hkeyword hname hbody
  rw [List.append_nil, ← String.toList_ofList (l := joinLines _)] at hblock
  exact ofSource_of_spells hblock (.block hb (.newline .nil))

/-- A model with one field. -/
def fieldSource (name type : String) : String :=
  "model M \x7b\n  " ++ name ++ " " ++ type ++ "\n\x7d\n"

/-- What that schema says. -/
def fieldDocument (name type : String) : Document :=
  ⟨[.model .model ⟨"M", [.entry ⟨name, .named type, none, [], none⟩]⟩]⟩

theorem lexical_singleLetter : (TokenKind.ident "M").Lexical :=
  ⟨'M', [], rfl, by decide, by simp⟩

theorem ofSource_fieldSource {name type : String} (hname : (TokenKind.ident name).Lexical)
    (htype : (TokenKind.ident type).Lexical) :
    Document.ofSource (fieldSource name type) = .ok (fieldDocument name type) := by
  have hsource : fieldSource name type = String.ofList (joinLines (blockLines "model" "M"
      [indented (name.toList ++ ' ' :: type.toList)])) := by
    rw [← String.toList_inj, String.toList_ofList]
    simp [fieldSource, blockLines, indented]
  have hline := ((writes_name hname).append (writes_name htype).space (breaks_space _)).space.space
  rw [hsource]
  exact ofSource_blockLines (lexical_modelKeyword .model) lexical_singleLetter hline.lineSpells
    (.model .model "M" (.newline (.entry (.intro name none none (.named type) .nil)
      (.newline _) .close)))

theorem fitsColumns_fieldDocument {name type : String} :
    (fieldDocument name type).FitsColumns ↔
      byteSize name.toList < UInt16.size ∧ byteSize type.toList < UInt16.size := by
  have hcolumns : (Block.model .model ⟨"M", [.entry ⟨name, .named type, none, [], none⟩]⟩).columns =
      [[name.toList], [type.toList ++ []]] := rfl
  simp only [Document.FitsColumns, fieldDocument, hcolumns, List.append_nil,
    List.forall_mem_singleton, List.forall_mem_cons]

/-- A field is read whose name no column has room for. -/
theorem wide_field_name_stops_layout :
    Document.ofSource (fieldSource (longName UInt16.size) "Int") =
        .ok (fieldDocument (longName UInt16.size) "Int") ∧
      (fieldDocument (longName UInt16.size) "Int").text = .error .tooWide := by
  have hname : (TokenKind.ident (longName UInt16.size)).Lexical := lexical_longName (by decide)
  have htype : (TokenKind.ident "Int").Lexical :=
    ⟨'I', ['n', 't'], rfl, by decide, List.all_eq_true.1 (by decide)⟩
  refine ⟨ofSource_fieldSource hname htype, Document.text_eq_error ?_⟩
  rw [fitsColumns_fieldDocument, byteSize_longName]
  exact fun h => absurd h.1 (Nat.lt_irrefl _)

/-- **Laying out keeps every significant token in its place.**  The tokens of the canonical text
and those of the text that was read are the same, but for line ends, commas behind last elements
and empty parentheses behind names of attributes; no comment is lost among them.  There is such a
text unless something in a column is too wide for it. -/
theorem significant_ofSource_text {source : String} {d : Document}
    (h : Document.ofSource source = .ok d) :
    d.TextSatisfies fun text => ∃ row row', TokenRow.ofSource source = .ok row ∧
      TokenRow.ofSource text = .ok row' ∧ significant row'.kinds = significant row.kinds ∧
      row'.kinds.filterMap TokenKind.comment? = row.kinds.filterMap TokenKind.comment? := by
  refine Document.textSatisfies_of_forall fun text htext => ?_
  obtain ⟨row, hrow, hschema, hlexical⟩ := exists_row_of_ofSource h
  obtain ⟨row', hrow', hschema', hlexical'⟩ := exists_row_of_text h htext
  have hsignificant : significant row'.kinds = significant row.kinds := by
    rw [hschema.significant_eq hlexical.undotted, hschema'.significant_eq hlexical'.undotted]
  refine ⟨row, row', hrow, hrow', hsignificant, ?_⟩
  rw [← significant_filterMap_comment, hsignificant, significant_filterMap_comment]

theorem significant_ofSource_text_sample :
    Document.ofSource sampleSource = .ok sampleDocument ∧ sampleDocument.FitsColumns ∧
      ∃ text, sampleDocument.text = .ok text ∧ ∃ row row',
        TokenRow.ofSource sampleSource = .ok row ∧ TokenRow.ofSource text = .ok row' ∧
        significant row'.kinds = significant row.kinds ∧
        row'.kinds.filterMap TokenKind.comment? = row.kinds.filterMap TokenKind.comment? := by
  have hfits : sampleDocument.FitsColumns := by decide +kernel
  exact ⟨ofSource_sampleSource, hfits, (significant_ofSource_text ofSource_sampleSource).fits hfits⟩

/-- A field is read whose type no column has room for, and none of its tokens is laid out. -/
theorem wide_field_type_stops_layout :
    Document.ofSource (fieldSource "id" (longName UInt16.size)) =
        .ok (fieldDocument "id" (longName UInt16.size)) ∧
      (fieldDocument "id" (longName UInt16.size)).text = .error .tooWide := by
  have hname : (TokenKind.ident "id").Lexical :=
    ⟨'i', ['d'], rfl, by decide, List.all_eq_true.1 (by decide)⟩
  have htype : (TokenKind.ident (longName UInt16.size)).Lexical := lexical_longName (by decide)
  refine ⟨ofSource_fieldSource hname htype, Document.text_eq_error ?_⟩
  rw [fitsColumns_fieldDocument, byteSize_longName]
  exact fun h => absurd h.2 (Nat.lt_irrefl _)

end SchemaForge.Schema
