import SchemaForge.Proofs.Schema.Reading.Document
import SchemaForge.Proofs.Schema.Scanning

/-!
# The widths of columns

The width of a column is that of its widest text, in bytes, and has to be said in sixteen bits.  So
a document can be laid out if and only if no text that stands in one of its columns is wider; then
each column has room for all of its texts.

## Main definitions

* `Block.columns` — the texts that stand in columns, column by column.
* `Document.FitsColumns` — all of them fit.
* `Document.TextSatisfies` — what holds of the text of a document that can be laid out.

## Main results

* `exists_columnWidth_iff` — when a column has a width.
* `length_le_of_columnWidth` — a column has room for the characters of its texts.
* `Document.exists_text_iff` — **a document has a text if and only if its columns fit.**
-/

namespace SchemaForge.Schema

open Text

/-! ### One column -/

section

variable {width : UInt16} {text : List Char} {texts : List (List Char)}

theorem widest_le_iff {bound : Nat} :
    widest texts ≤ bound ↔ ∀ text ∈ texts, byteSize text ≤ bound := by
  have hfold (texts : List (List Char)) (width : Nat) :
      texts.foldl (fun width text => max width (byteSize text)) width ≤ bound ↔
        width ≤ bound ∧ ∀ text ∈ texts, byteSize text ≤ bound := by
    induction texts generalizing width with
    | nil => simp
    | cons text texts ih => rw [List.foldl_cons, ih, List.forall_mem_cons, max_le_iff, and_assoc]
  rw [widest, hfold]
  exact and_iff_right (Nat.zero_le bound)

theorem columnWidth_eq_ok_iff : columnWidth texts = .ok width ↔ widest texts = width.toNat := by
  rw [columnWidth]
  split
  · next h =>
    rw [Except.ok.injEq, ← UInt16.toNat_inj, UInt16.toNat_ofNatLT]
  · next h =>
    have hwidth := width.toNat_lt
    constructor
    · intro h'
      cases h'
    · intro h'
      rw [h'] at h
      exact absurd hwidth h

theorem widest_lt_iff {bound : Nat} (hbound : 0 < bound) :
    widest texts < bound ↔ ∀ text ∈ texts, byteSize text < bound := by
  obtain ⟨last, rfl⟩ := Nat.exists_eq_add_one.2 hbound
  simp only [Nat.lt_add_one_iff]
  exact widest_le_iff

/-- A column has a width if and only if each of its texts fits. -/
theorem exists_columnWidth_iff :
    (∃ width, columnWidth texts = .ok width) ↔ ∀ text ∈ texts, byteSize text < UInt16.size := by
  rw [← widest_lt_iff (by decide)]
  constructor
  · rintro ⟨width, hwidth⟩
    rw [columnWidth_eq_ok_iff.1 hwidth]
    exact width.toNat_lt
  · intro h
    exact ⟨.ofNatLT (widest texts) h, dif_pos h⟩

theorem length_le_byteSize (text : List Char) : text.length ≤ byteSize text := by
  induction text with
  | nil => exact Nat.le_refl 0
  | cons c text ih =>
    have hpos := Char.utf8Size_pos c
    rw [byteSize_cons, List.length_cons]
    omega

/-- **A column has room for the characters of each of its texts**: none has more characters than
bytes. -/
theorem length_le_of_columnWidth (h : columnWidth texts = .ok width) (htext : text ∈ texts) :
    text.length ≤ width.toNat := by
  have hwidest := widest_le_iff.1 (columnWidth_eq_ok_iff.1 h).le text htext
  exact (length_le_byteSize text).trans hwidest

end

/-! ### Blocks and documents -/

/-- The columns of a block, each with the texts that stand in it: the names and the types of fields,
and the keys of settings. -/
def Block.columns : Block → List (List (List Char))
  | .model _ m => [m.entries.map fun f => f.name.toList, m.entries.map Field.typeText]
  | .enumeration _ => []
  | .settings _ s => [s.entries.map fun e => e.key.toList]
  | .comment _ => []

/-- The number of bytes of every text in a column of the document can be said in sixteen bits. -/
def Document.FitsColumns (d : Document) : Prop :=
  ∀ b ∈ d.blocks, ∀ column ∈ b.columns, ∀ text ∈ column, byteSize text < UInt16.size

instance (d : Document) : Decidable d.FitsColumns :=
  inferInstanceAs (Decidable (∀ b ∈ d.blocks, ∀ column ∈ b.columns, ∀ text ∈ column,
    byteSize text < UInt16.size))

section

variable {lines : List (List Char)}

theorem modelLines_eq_ok_iff {kind : ModelKind} {m : Model} :
    modelLines kind m = .ok lines ↔ ∃ nameWidth typeWidth,
      columnWidth (m.entries.map fun f => f.name.toList) = .ok nameWidth ∧
      columnWidth (m.entries.map Field.typeText) = .ok typeWidth ∧
      blockLines kind.keyword m.name (modelItemLines nameWidth typeWidth false m.items) =
        lines := by
  simp only [modelLines, bind_eq_ok, pure, Except.pure, Except.ok.injEq, exists_and_left]

theorem settingsLines_eq_ok_iff {kind : SettingsKind} {s : SettingsBlock} :
    settingsLines kind s = .ok lines ↔ ∃ keyWidth,
      columnWidth (s.entries.map fun e => e.key.toList) = .ok keyWidth ∧
      blockLines kind.keyword s.name (s.items.map (settingItemLine keyWidth)) = lines := by
  simp only [settingsLines, bind_eq_ok, pure, Except.pure, Except.ok.injEq]

/-- A block has lines if and only if its columns have widths. -/
theorem Block.exists_lines_iff {b : Block} : (∃ lines, b.lines = .ok lines) ↔
    ∀ column ∈ b.columns, ∀ text ∈ column, byteSize text < UInt16.size := by
  cases b with
  | model kind m =>
    simp only [Block.lines, modelLines_eq_ok_iff, Block.columns, List.forall_mem_cons,
      ← exists_columnWidth_iff]
    constructor
    · rintro ⟨_, nameWidth, typeWidth, hname, htype, -⟩
      exact ⟨⟨nameWidth, hname⟩, ⟨typeWidth, htype⟩, by simp⟩
    · rintro ⟨⟨nameWidth, hname⟩, ⟨typeWidth, htype⟩, -⟩
      exact ⟨_, nameWidth, typeWidth, hname, htype, rfl⟩
  | enumeration e => simp [Block.lines, Block.columns]
  | settings kind s =>
    simp only [Block.lines, settingsLines_eq_ok_iff, Block.columns, List.forall_mem_cons,
      ← exists_columnWidth_iff]
    constructor
    · rintro ⟨_, keyWidth, hkey, -⟩
      exact ⟨⟨keyWidth, hkey⟩, by simp⟩
    · rintro ⟨⟨keyWidth, hkey⟩, -⟩
      exact ⟨_, keyWidth, hkey, rfl⟩
  | comment text => simp [Block.lines, Block.columns]

theorem blocksLines_eq_ok_iff {b c : Block} {bs : List Block} :
    blocksLines (b :: c :: bs) = .ok lines ↔ ∃ front back, b.lines = .ok front ∧
      blocksLines (c :: bs) = .ok back ∧ front ++ b.gap ++ back = lines := by
  simp only [blocksLines, bind_eq_ok, pure, Except.pure, Except.ok.injEq, exists_and_left]

/-- Blocks have lines if and only if each of them has. -/
theorem exists_blocksLines_iff {bs : List Block} :
    (∃ lines, blocksLines bs = .ok lines) ↔ ∀ b ∈ bs, ∃ lines, b.lines = .ok lines := by
  induction bs with
  | nil => simp [blocksLines]
  | cons b bs ih =>
    cases bs with
    | nil => simp [blocksLines]
    | cons c bs =>
      rw [List.forall_mem_cons, ← ih]
      constructor
      · rintro ⟨lines, hlines⟩
        obtain ⟨front, back, hfront, hback, -⟩ := blocksLines_eq_ok_iff.1 hlines
        exact ⟨⟨front, hfront⟩, back, hback⟩
      · rintro ⟨⟨front, hfront⟩, back, hback⟩
        exact ⟨_, blocksLines_eq_ok_iff.2 ⟨front, back, hfront, hback, rfl⟩⟩

end

namespace Document

variable {d : Document} {text : String}

theorem text_eq_ok_iff : d.text = .ok text ↔
    ∃ lines, blocksLines d.blocks = .ok lines ∧ String.ofList (joinLines lines) = text := by
  simp only [Document.text, Document.lines, bind_eq_ok, pure, Except.pure, Except.ok.injEq]

/-- **A document has a text if and only if its columns fit.** -/
theorem exists_text_iff : (∃ text, d.text = .ok text) ↔ d.FitsColumns := by
  have hlines : (∃ text, d.text = .ok text) ↔ ∃ lines, blocksLines d.blocks = .ok lines := by
    simp only [text_eq_ok_iff]
    constructor
    · rintro ⟨_, lines, hlines, -⟩
      exact ⟨lines, hlines⟩
    · rintro ⟨lines, hlines⟩
      exact ⟨_, lines, hlines, rfl⟩
  rw [hlines, exists_blocksLines_iff]
  simp only [Block.exists_lines_iff, FitsColumns]

/-- Columns that do not fit are the one reason for a document to have no text. -/
theorem text_eq_error (h : ¬ d.FitsColumns) : d.text = .error .tooWide := by
  cases htext : d.text with
  | ok text => exact absurd (exists_text_iff.1 ⟨text, htext⟩) h
  | error fault => rfl

/-- What is true of the canonical text of a document: there is one, of which it is true, if the
columns of the document fit; else the document cannot be laid out. -/
structure TextSatisfies (d : Document) (P : String → Prop) : Prop where
  /-- Columns that fit make a text. -/
  fits : d.FitsColumns → ∃ text, d.text = .ok text ∧ P text
  /-- Other columns make none. -/
  tooWide : ¬ d.FitsColumns → d.text = .error .tooWide

/-- What is true of every text of a document is true of its text. -/
theorem textSatisfies_of_forall {P : String → Prop} (h : ∀ text, d.text = .ok text → P text) :
    d.TextSatisfies P := by
  refine ⟨fun hfits => ?_, text_eq_error⟩
  obtain ⟨text, htext⟩ := exists_text_iff.2 hfits
  exact ⟨text, htext, h text htext⟩

end Document

/-! ### Names of any length -/

/-- A name of a number of letters. -/
def longName (letters : Nat) : String :=
  String.ofList (List.replicate letters 'a')

theorem lexical_longName {letters : Nat} (h : 0 < letters) :
    (TokenKind.ident (longName letters)).Lexical := by
  obtain ⟨more, rfl⟩ := Nat.exists_eq_add_one.2 h
  refine ⟨'a', List.replicate more 'a', String.toList_ofList, by decide, ?_⟩
  intro c hc
  rw [List.eq_of_mem_replicate hc]
  decide

theorem byteSize_longName (letters : Nat) : byteSize (longName letters).toList = letters := by
  rw [longName, String.toList_ofList]
  induction letters with
  | zero => rfl
  | succ letters ih =>
    rw [List.replicate_succ, byteSize_cons, ih]
    exact Nat.add_comm 1 letters

end SchemaForge.Schema
