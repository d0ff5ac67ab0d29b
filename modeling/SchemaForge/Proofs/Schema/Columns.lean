import SchemaForge.Proofs.Schema.RoundTrip

/-!
# The layout of the canonical text

The canonical text is made of lines with something on them and of blank lines, never two of these
in a row.  What a block says stands line by line: its head, one line for each item, its closing
brace.  In a block of fields the types start at one column and the first attributes at another, and
in a block of settings the equals signs stand at one; columns are counted in characters, though
their widths are measured in bytes.

## Main definitions

* `IsTidy` — a text whose lines end in no blank and are at most a blank line apart.
* `InColumns` — a line of cells that start at given columns.
* `Block.LaidOut` — the lines of a block.

## Main results

* `IsField.isLine`, `IsSetting.isLine` — entries stand in columns.
* `Block.Spelled.exists_isLines` — what a block says stands line by line.
* `canonical_layout` — **the layout of the canonical text.**
-/

namespace SchemaForge.Schema

open Text

/-! ### Lines with something on them -/

/-- A line with something on it: no line feed in it, and no blank at its end. -/
structure IsInkLine (line : List Char) : Prop where
  /-- It is one line. -/
  whole : '\n' ∉ line
  /-- It ends in no blank. -/
  ink : EndsInk line

theorem EndsInk.ne_nil {text : List Char} (h : EndsInk text) : text ≠ [] := by
  obtain ⟨front, c, rfl, -⟩ := h
  simp

section

variable {ts : List TokenKind}

theorem newline_notMem_name {name : String} (h : (TokenKind.ident name).Lexical) :
    '\n' ∉ name.toList := by
  obtain ⟨c, cs, htext, hc, hcs⟩ := h
  rw [htext, List.mem_cons]
  rintro (rfl | hmem)
  · exact absurd hc (by decide)
  · exact absurd (hcs _ hmem) (by decide)

theorem newline_notMem_number {digits : String} (h : (TokenKind.number digits).Lexical) :
    '\n' ∉ digits.toList := by
  obtain ⟨c, cs, htext, hc, hcs⟩ := h
  rw [htext, List.mem_cons]
  rintro (rfl | hmem)
  · simp at hc
  · exact absurd (hcs _ hmem) (by decide)

/-- A quoted text is written on one line, whatever is in it. -/
theorem newline_notMem_quote (text : List Char) : '\n' ∉ quote text := by
  have hescape (c : Char) : '\n' ∉ escape c := by
    unfold escape
    split <;> simp_all [eq_comm]
  simp [quote, hescape]

theorem newline_notMem_commaText {α : Type} {text : α → List Char} {as : List α}
    (h : ∀ a ∈ as, '\n' ∉ text a) : '\n' ∉ commaText text as := by
  induction as with
  | nil => simp [commaText]
  | cons a as ih =>
    have ha := h a (List.mem_cons_self ..)
    cases as with
    | nil => exact ha
    | cons b bs =>
      have htail := ih fun c hc => h c (List.mem_cons_of_mem _ hc)
      simp [commaText, ha, htail]

theorem newline_notMem_argument {P : List TokenKind → Value → Prop} {a : Argument Value}
    (h : IsArgument P ts a) (hts : AreLexical ts)
    (hP : ∀ us v, us ⊆ ts → P us v → '\n' ∉ v.text) : '\n' ∉ a.text := by
  cases h with
  | positional hv => simpa [Argument.text, argumentMark] using hP _ _ (fun t ht => ht) hv
  | @named us v name hv =>
    have hvalue := hP us v (fun t ht => by simp [ht]) hv
    have hname := newline_notMem_name (hts (.ident name) (by simp))
    simp [Argument.text, argumentMark, hname, hvalue]

theorem IsValue.newline_notMem {v : Value} (h : IsValue ts v) (hts : AreLexical ts) :
    '\n' ∉ v.text := by
  induction h using IsValue.induction with
  | string s => exact newline_notMem_quote _
  | number n => exact newline_notMem_number (hts _ (by simp))
  | name n =>
    rw [text_ofName]
    exact newline_notMem_name (hts _ (by simp))
  | call name ts args _ ih =>
    have hargs : '\n' ∉ argumentsText args := by
      rw [argumentsText_eq]
      apply newline_notMem_commaText
      intro a ha
      obtain ⟨us, hsub, hus⟩ := ih.exists_of_mem ha
      have hlexical : AreLexical us := fun t ht => hts t (by simp [hsub ht])
      exact newline_notMem_argument hus hlexical fun xs v hxs hv =>
        hv.2 fun t ht => hlexical t (hxs ht)
    have hname := newline_notMem_name (hts (.ident name) (by simp))
    simp [Value.text, hname, hargs]
  | array ts vs _ ih =>
    have hvs : '\n' ∉ valuesText vs := by
      rw [valuesText_eq]
      apply newline_notMem_commaText
      intro v hv
      obtain ⟨us, hsub, hus⟩ := ih.exists_of_mem hv
      exact hus.2 fun t ht => hts t (by simp [hsub ht])
    simp [Value.text, hvs]

theorem IsDottedName.newline_notMem {name : String} (h : IsDottedName ts name)
    (hts : AreLexical ts) : '\n' ∉ name.toList := by
  induction h with
  | single name => exact newline_notMem_name (hts _ (by simp))
  | @snoc ts front part _ ih =>
    have hfront := ih fun t ht => hts t (by simp [ht])
    have hpart := newline_notMem_name (hts (.ident part) (by simp))
    simp [hfront, hpart]

theorem IsAttribute.newline_notMem {a : Attribute} (h : IsAttribute ts a) (hts : AreLexical ts) :
    '\n' ∉ a.text := by
  cases h with
  | bare hname => exact hname.newline_notMem hts
  | @applied ts us name args hname hargs =>
    have hname' := hname.newline_notMem fun t ht => hts t (by simp [ht])
    have hargs' : '\n' ∉ argumentsText args := by
      rw [argumentsText_eq]
      apply newline_notMem_commaText
      intro a ha
      obtain ⟨xs, hsub, hxs⟩ := hargs.exists_of_mem ha
      have hlexical : AreLexical xs := fun t ht => hts t (by simp [hsub ht])
      exact newline_notMem_argument hxs hlexical fun ys v hys hv =>
        hv.newline_notMem fun t ht => hlexical t (hys ht)
    rw [Attribute.text]
    split <;> simp [hname', hargs']

theorem AreAttributes.newline_notMem {as : List Attribute} (h : AreAttributes ts as)
    (hts : AreLexical ts) : '\n' ∉ attributesText as := by
  induction h with
  | nil => simp [attributesText]
  | @cons us ts a as ha _ ih =>
    have hattr := ha.newline_notMem fun t ht => hts t (by simp [ht])
    have hrest := ih fun t ht => hts t (by simp [ht])
    rw [attributesText] at hrest
    simp [attributesText, hattr, hrest]

theorem IsFieldType.newline_notMem {type : FieldType} (h : IsFieldType ts type)
    (hts : AreLexical ts) : '\n' ∉ type.text := by
  cases h with
  | named name => exact newline_notMem_name (hts _ (by simp))
  | unsupported native =>
    have hmark : '\n' ∉ "Unsupported(".toList := by decide
    show '\n' ∉ "Unsupported(".toList ++ quote native.toList ++ [')']
    rw [List.mem_append, List.mem_append, not_or, not_or]
    exact ⟨⟨hmark, newline_notMem_quote _⟩, by decide⟩

theorem newline_notMem_modifierText (modifier : Option Modifier) :
    '\n' ∉ modifierText modifier := by
  rcases modifier with _ | _ | _ <;> decide

theorem isInkLine_comment {text : String} (h : (TokenKind.comment text).Lexical) :
    IsInkLine text.toList := by
  obtain ⟨cs, htext, hcs, htrim⟩ := h
  refine ⟨by simp [htext, hcs], ?_⟩
  rcases trimEnd_eq_nil_or_concat text.toList with hnil | ⟨front, c, hconcat, hc⟩
  · rw [htrim, htext] at hnil
    cases hnil
  · exact ⟨front, c, htrim.symm.trans hconcat, hc⟩

end

/-! ### Columns -/

/-- A line of cells: each starts at its column, behind at least one space, the first of them behind
a given number of characters. -/
inductive InColumns : Nat → List (Nat × List Char) → List Char → Prop
  /-- No cell. -/
  | nil (start : Nat) : InColumns start [] []
  /-- A cell behind spaces, and what is behind it. -/
  | cons (gap : Nat) {start column : Nat} {cell line : List Char} {cells : List (Nat × List Char)}
    (hgap : 0 < gap) (hcolumn : column = start + gap)
    (hline : InColumns (column + cell.length) cells line) :
    InColumns start ((column, cell) :: cells) (List.replicate gap ' ' ++ (cell ++ line))

/-- The comment behind the cells of a line. -/
def commentBehind : Option String → List Char
  | some comment => ' ' :: comment.toList
  | none => []

/-- The attributes of an entry start at a column together, each but the first behind a space. -/
def attributeCells (column : Nat) : List Attribute → List (Nat × List Char)
  | [] => []
  | a :: as => [(column, '@' :: (a.text ++ attributesText as))]

/-- A field on its line, with its type and its first attribute at given columns. -/
def Field.IsLine (typeColumn attributeColumn : Nat) (f : Field) (line : List Char) : Prop :=
  ∃ cells, line = cells ++ commentBehind f.comment ∧
    InColumns 0 ((2, f.name.toList) :: (typeColumn, f.typeText) ::
      attributeCells attributeColumn f.attributes) cells

/-- A value of an enumeration on its line. -/
def EnumValue.IsLine (v : EnumValue) (line : List Char) : Prop :=
  line = indented (v.name.toList ++ attributesText v.attributes) ++ commentBehind v.comment

/-- A setting on its line, with its equals sign at a given column. -/
def Setting.IsLine (equalsColumn : Nat) (s : Setting) (line : List Char) : Prop :=
  ∃ cells, line = cells ++ commentBehind s.comment ∧
    InColumns 0 [(2, s.key.toList), (equalsColumn, '=' :: ' ' :: s.value.text)] cells

section

variable {ts : List TokenKind} {width : UInt16} {text : List Char}

theorem padTo_append_space (width : UInt16) (text rest : List Char) :
    padTo width text ++ ' ' :: rest =
      text ++ (List.replicate (width.toNat - text.length + 1) ' ' ++ rest) := by
  simp [padTo, List.replicate_succ']

/-- The first column of a line: the next cell starts where it ends. -/
theorem inColumns_indented_padTo {cell line : List Char} {cells : List (Nat × List Char)}
    (htext : text.length ≤ width.toNat)
    (hline : InColumns (width.toNat + 3 + cell.length) cells line) :
    InColumns 0 ((2, text) :: (width.toNat + 3, cell) :: cells)
      (indented (padTo width text ++ ' ' :: (cell ++ line))) := by
  rw [padTo_append_space]
  exact .cons 2 (by omega) rfl (.cons (width.toNat - text.length + 1) (by omega) (by omega) hline)

theorem withComment_eq (line : List Char) (comment : Option String) :
    withComment line comment = trimEnd line ++ commentBehind comment := by
  cases comment with
  | none => simp [withComment, commentBehind]
  | some text => rfl

/-- A comment behind a line leaves it a line with something on it. -/
theorem IsInkLine.append_commentBehind {line : List Char} (h : IsInkLine line)
    {comment : Option String} (hcomment : AreLexical (commentTokens comment)) :
    IsInkLine (line ++ commentBehind comment) := by
  cases comment with
  | none => simpa [commentBehind] using h
  | some text =>
    have htext := isInkLine_comment (hcomment (.comment text) (by simp [commentTokens]))
    refine ⟨?_, (htext.ink.append_left [' ']).append_left line⟩
    simp [commentBehind, h.whole, htext.whole]

theorem IsInkLine.indented {line : List Char} (h : IsInkLine line) : IsInkLine (indented line) :=
  ⟨by simp [Schema.indented, h.whole], h.ink.indented⟩

theorem newline_notMem_padTo (width : UInt16) (h : '\n' ∉ text) : '\n' ∉ padTo width text := by
  simp [padTo, h]

/-- **A field stands in columns.**  Its padding is trimmed off only where no attribute is behind
it. -/
theorem IsField.isLine {f : Field} (h : IsField ts f) (hts : AreLexical ts)
    {nameWidth typeWidth : UInt16} (hname : f.name.toList.length ≤ nameWidth.toNat)
    (htype : f.typeText.length ≤ typeWidth.toNat) :
    f.IsLine (nameWidth.toNat + 3) (nameWidth.toNat + typeWidth.toNat + 4)
        (f.line nameWidth typeWidth) ∧
      IsInkLine (f.line nameWidth typeWidth) := by
  obtain ⟨name, type, modifier, attributes, comment⟩ := f
  cases h with
  | @intro _ us xs _ _ _ _ hus hattributes =>
    have hxs : AreLexical xs := fun t ht => hts t (by simp [ht])
    have husLexical : AreLexical us := fun t ht => hts t (by simp [ht])
    have hcomment : AreLexical (commentTokens comment) := fun t ht => hts t (by simp [ht])
    have hink := endsInk_append_modifierText (hus.endsInk husLexical) modifier
    have hnameWhole := newline_notMem_padTo nameWidth
      (newline_notMem_name (hts (.ident name) (by simp)))
    have htypeWhole : '\n' ∉ type.text ++ modifierText modifier := by
      simp [hus.newline_notMem husLexical, newline_notMem_modifierText]
    have hattributesWhole := hattributes.newline_notMem hxs
    suffices hcells : ∃ cells, trimEnd (indented (padTo nameWidth name.toList ++ ' ' ::
        (padTo typeWidth (type.text ++ modifierText modifier) ++ attributesText attributes))) =
          cells ∧ IsInkLine cells ∧
        InColumns 0 ((2, name.toList) ::
          (nameWidth.toNat + 3, type.text ++ modifierText modifier) ::
          attributeCells (nameWidth.toNat + typeWidth.toNat + 4) attributes) cells by
      obtain ⟨cells, hline, hcells, hcolumns⟩ := hcells
      rw [Field.line, withComment_eq, Field.typeText, hline]
      exact ⟨⟨cells, rfl, hcolumns⟩, hcells.append_commentBehind hcomment⟩
    dsimp only [Field.typeText] at hname htype
    cases attributes with
    | nil =>
      refine ⟨indented (padTo nameWidth name.toList ++ ' ' :: (type.text ++ modifierText modifier)),
        ?_, ?_, ?_⟩
      · rw [attributesText, List.flatMap_nil, List.append_nil, indented_append_space,
          trimEnd_append_padTo hink, ← indented_append_space]
      · refine IsInkLine.indented ⟨?_, (hink.append_left [' ']).append_left _⟩
        simp [hnameWhole, htypeWhole]
      · have hcells := inColumns_indented_padTo hname
          (.nil (nameWidth.toNat + 3 + (type.text ++ modifierText modifier).length))
        rwa [List.append_nil] at hcells
    | cons a as =>
      rcases hattributes.eq_nil_or_endsInk hxs with hnil | hend
      · cases hnil
      have hline := ((hend.append_left (padTo typeWidth (type.text ++ modifierText modifier)))
        |>.append_left [' ']).append_left (padTo nameWidth name.toList)
      refine ⟨_, hline.indented.trimEnd_eq, IsInkLine.indented ⟨?_, hline⟩, ?_⟩
      · simp [hnameWhole, hattributesWhole, newline_notMem_padTo typeWidth htypeWhole]
      · have hbehind : attributesText (a :: as) =
            ' ' :: ('@' :: (a.text ++ attributesText as) ++ []) := by
          simp [attributesText]
        rw [hbehind, padTo_append_space]
        exact inColumns_indented_padTo hname (.cons _ (by omega) (by omega) (.nil _))

/-- A value of an enumeration stands on its line. -/
theorem IsEnumValue.isLine {v : EnumValue} (h : IsEnumValue ts v) (hts : AreLexical ts) :
    v.IsLine v.line ∧ IsInkLine v.line := by
  obtain ⟨name, attributes, comment⟩ := v
  cases h with
  | @intro _ xs _ _ hattributes =>
    have hxs : AreLexical xs := fun t ht => hts t (by simp [ht])
    have hcomment : AreLexical (commentTokens comment) := fun t ht => hts t (by simp [ht])
    have hname := hts (.ident name) (by simp)
    have hcells : IsInkLine (name.toList ++ attributesText attributes) := by
      refine ⟨by simp [newline_notMem_name hname, hattributes.newline_notMem hxs], ?_⟩
      rcases hattributes.eq_nil_or_endsInk hxs with rfl | hend
      · simpa [attributesText] using endsInk_name hname
      · exact hend.append_left _
    have hline := withComment_eq (indented (name.toList ++ attributesText attributes)) comment
    rw [hcells.indented.ink.trimEnd_eq] at hline
    rw [EnumValue.line, hline]
    exact ⟨rfl, hcells.indented.append_commentBehind hcomment⟩

/-- **A setting stands in columns.** -/
theorem IsSetting.isLine {s : Setting} (h : IsSetting ts s) (hts : AreLexical ts)
    {keyWidth : UInt16} (hkey : s.key.toList.length ≤ keyWidth.toNat) :
    s.IsLine (keyWidth.toNat + 3) (s.line keyWidth) ∧ IsInkLine (s.line keyWidth) := by
  obtain ⟨key, value, comment⟩ := s
  cases h with
  | @intro _ xs _ _ hvalue =>
    have hxs : AreLexical xs := fun t ht => hts t (by simp [ht])
    have hcomment : AreLexical (commentTokens comment) := fun t ht => hts t (by simp [ht])
    have hkeyWhole := newline_notMem_padTo keyWidth
      (newline_notMem_name (hts (.ident key) (by simp)))
    have hcells : IsInkLine (padTo keyWidth key.toList ++ ' ' :: '=' :: ' ' :: value.text) :=
      ⟨by simp [hkeyWhole, hvalue.newline_notMem hxs],
        ((hvalue.endsInk hxs).append_left [' ', '=', ' ']).append_left _⟩
    have hcolumns := inColumns_indented_padTo hkey
      (.nil (keyWidth.toNat + 3 + ('=' :: ' ' :: value.text).length))
    rw [List.append_nil] at hcolumns
    rw [Setting.line, withComment_eq, hcells.indented.ink.trimEnd_eq]
    exact ⟨⟨_, rfl, hcolumns⟩, hcells.indented.append_commentBehind hcomment⟩

theorem IsAttribute.isInkLine {a : Attribute} (h : IsAttribute ts a) (hts : AreLexical ts) :
    IsInkLine (blockAttributeLine a) := by
  refine IsInkLine.indented ⟨?_, (h.ends hts).2.append_left ['@', '@']⟩
  simp [h.newline_notMem hts]

end

/-! ### Lines of blocks -/

section

variable {ε α : Type}

/-- What an item of a block looks like on its line, if entries and attributes of the block look as
given. -/
def Item.IsLine (Entry : ε → List Char → Prop) (Attr : α → List Char → Prop) :
    Item ε α → List Char → Prop
  | .entry e, line => Entry e line
  | .blockAttribute a, line => Attr a line
  | .comment text, line => line = indented text.toList

end

/-- The lines of a block with something on them: its head, a line for each item, its closing brace.
Types of fields start at one column, first attributes at another, and equals signs at one. -/
def Block.LaidOut : Block → List (List Char) → Prop
  | .model kind m, lines => ∃ typeColumn attributeColumn items,
      lines = blockLines kind.keyword m.name items ∧
        List.Forall₂ (Item.IsLine (Field.IsLine typeColumn attributeColumn)
          fun a line => line = blockAttributeLine a) m.items items
  | .enumeration e, lines => ∃ items, lines = blockLines enumKeyword e.name items ∧
      List.Forall₂ (Item.IsLine EnumValue.IsLine fun a line => line = blockAttributeLine a)
        e.items items
  | .settings kind s, lines => ∃ equalsColumn items,
      lines = blockLines kind.keyword s.name items ∧
        List.Forall₂ (Item.IsLine (Setting.IsLine equalsColumn) fun _ _ => False) s.items items
  | .comment text, lines => lines = [text.toList]

/-! ### Blank lines -/

/-- Lines as they are laid out: in front of some of them stands one blank line. -/
inductive Spaced : List (List Char) → List (List Char) → Prop
  /-- No line. -/
  | nil : Spaced [] []
  /-- A line that follows at once. -/
  | line {lines spaced : List (List Char)} (line : List Char) (h : Spaced lines spaced) :
    Spaced (line :: lines) (line :: spaced)
  /-- A line behind a blank one. -/
  | blank {lines spaced : List (List Char)} (line : List Char) (h : Spaced lines spaced) :
    Spaced (line :: lines) ([] :: line :: spaced)

namespace Spaced

variable {lines spaced lines' spaced' : List (List Char)}

theorem refl (lines : List (List Char)) : Spaced lines lines := by
  induction lines with
  | nil => exact .nil
  | cons line lines ih => exact .line line ih

theorem append (h : Spaced lines spaced) (h' : Spaced lines' spaced') :
    Spaced (lines ++ lines') (spaced ++ spaced') := by
  induction h with
  | nil => exact h'
  | line line _ ih => exact .line line ih
  | blank line _ ih => exact .blank line ih

/-- A blank line may be put in front of lines that do not start with one. -/
theorem blank_of_head? (h : Spaced lines spaced) (hne : lines ≠ [])
    (hhead : spaced.head? = lines.head?) (hink : ∀ line ∈ lines, line ≠ []) :
    Spaced lines ([] :: spaced) := by
  cases h with
  | nil => exact absurd rfl hne
  | line line h => exact .blank line h
  | blank line h => exact absurd (Option.some.inj hhead).symm (hink line (List.mem_cons_self ..))

theorem mem (h : Spaced lines spaced) {line : List Char} (hline : line ∈ spaced) :
    line = [] ∨ line ∈ lines := by
  induction h with
  | nil => cases hline
  | line first _ ih =>
    rcases List.mem_cons.1 hline with rfl | hline
    · exact .inr (List.mem_cons_self ..)
    · exact (ih hline).imp_right (List.mem_cons_of_mem _)
  | blank first _ ih =>
    rcases List.mem_cons.1 hline with rfl | hline
    · exact .inl rfl
    rcases List.mem_cons.1 hline with rfl | hline
    · exact .inr (List.mem_cons_self ..)
    · exact (ih hline).imp_right (List.mem_cons_of_mem _)

/-- Without the blank lines it is the lines again. -/
theorem filter_eq (h : Spaced lines spaced) (hink : ∀ line ∈ lines, line ≠ []) :
    spaced.filter (· ≠ []) = lines := by
  induction h with
  | nil => rfl
  | line line _ ih =>
    obtain ⟨hline, hlines⟩ := List.forall_mem_cons.1 hink
    simp [hline, ← ih hlines]
  | blank line _ ih =>
    obtain ⟨hline, hlines⟩ := List.forall_mem_cons.1 hink
    simp [hline, ← ih hlines]

/-- The last line is not a blank one. -/
theorem getLast?_eq (h : Spaced lines spaced) : spaced.getLast? = lines.getLast? := by
  induction h with
  | nil => rfl
  | line line _ ih => rw [List.getLast?_cons, List.getLast?_cons, ih]
  | blank line _ ih => rw [List.getLast?_cons_cons, List.getLast?_cons, List.getLast?_cons, ih]

/-- **No two blank lines stand in a row.** -/
theorem isChain (h : Spaced lines spaced) (hink : ∀ line ∈ lines, line ≠ []) :
    spaced.IsChain fun line next => line ≠ [] ∨ next ≠ [] := by
  induction h with
  | nil => exact .nil
  | line line _ ih =>
    obtain ⟨hline, hlines⟩ := List.forall_mem_cons.1 hink
    exact (ih hlines).cons fun _ _ => .inl hline
  | blank line _ ih =>
    obtain ⟨hline, hlines⟩ := List.forall_mem_cons.1 hink
    exact ((ih hlines).cons fun _ _ => .inl hline).cons_cons (.inr hline)

end Spaced

/-! ### The lines of a text -/

/-- The lines of a text with something on them. -/
def inkLines (text : List Char) : List (List Char) :=
  (text.splitOn '\n').filter (· ≠ [])

/-- No line ends in a blank; the text is empty or ends in exactly one line feed; it does not start
with a blank line, and no two of them stand in a row. -/
structure IsTidy (text : List Char) : Prop where
  /-- A line is blank or ends in no blank. -/
  ink : ∀ line ∈ text.splitOn '\n', line = [] ∨ EndsInk line
  /-- There is one line feed at the end. -/
  finish : text = [] ∨ ∃ front c, text = front ++ [c, '\n'] ∧ c ≠ '\n'
  /-- There is none in front. -/
  start : text.head? ≠ some '\n'
  /-- Of two lines in a row, one is not blank. -/
  gaps : (text.splitOn '\n').IsChain fun line next => line ≠ [] ∨ next ≠ []

theorem splitOn_joinLines {lines : List (List Char)} (h : ∀ line ∈ lines, '\n' ∉ line) :
    (joinLines lines).splitOn '\n' = lines ++ [[]] := by
  induction lines with
  | nil => rfl
  | cons line lines ih =>
    obtain ⟨hline, hlines⟩ := List.forall_mem_cons.1 h
    rw [joinLines_cons, List.splitOn_append_cons_self, List.splitOn_eq_singleton hline, ih hlines]
    rfl

/-- **Lines that are laid out make a tidy text**, and are what is on its lines. -/
theorem Spaced.isTidy {lines spaced : List (List Char)} (h : Spaced lines spaced)
    (hhead : spaced.head? = lines.head?) (hink : ∀ line ∈ lines, IsInkLine line) :
    IsTidy (joinLines spaced) ∧ inkLines (joinLines spaced) = lines := by
  have hne : ∀ line ∈ lines, line ≠ [] := fun line hline => (hink line hline).ink.ne_nil
  have hwhole : ∀ line ∈ spaced, '\n' ∉ line := by
    intro line hline
    rcases h.mem hline with rfl | hmem
    · simp
    · exact (hink line hmem).whole
  have hlast : ∀ line ∈ spaced.getLast?, line ∈ lines := by
    intro line hline
    rw [h.getLast?_eq] at hline
    exact List.mem_of_getLast? hline
  have hsplit := splitOn_joinLines hwhole
  refine ⟨⟨?_, ?_, ?_, ?_⟩, ?_⟩
  · intro line hline
    rw [hsplit, List.mem_append, List.mem_singleton] at hline
    rcases hline with hline | rfl
    · exact (h.mem hline).imp_right fun hmem => (hink line hmem).ink
    · exact .inl rfl
  · rcases List.eq_nil_or_concat' spaced with rfl | ⟨front, line, rfl⟩
    · exact .inl rfl
    obtain ⟨hline, front', c, rfl, hc⟩ := hink line (hlast line (by simp))
    refine .inr ⟨joinLines front ++ front', c, by simp, ?_⟩
    rintro rfl
    exact hline (by simp)
  · cases spaced with
    | nil => simp
    | cons line spaced =>
      have hmem : line ∈ lines := List.mem_of_head? hhead.symm
      obtain ⟨c, cs, rfl⟩ := List.exists_cons_of_ne_nil (hne line hmem)
      have hc := (hink _ hmem).whole
      simp only [List.mem_cons, not_or] at hc
      simp [Ne.symm hc.1]
  · rw [hsplit]
    refine (h.isChain hne).append (.singleton []) ?_
    intro line hline _ _
    exact .inl (hne line (hlast line hline))
  · rw [inkLines, hsplit, List.filter_append, h.filter_eq hne]
    simp

/-! ### Whole blocks -/

/-- The line of an item of a model. -/
def modelItemLine (nameWidth typeWidth : UInt16) : Item Field Attribute → List Char
  | .entry f => f.line nameWidth typeWidth
  | .blockAttribute a => blockAttributeLine a
  | .comment text => indented text.toList

theorem spaced_modelItemLines (nameWidth typeWidth : UInt16) (afterField : Bool)
    (items : List (Item Field Attribute)) :
    Spaced (items.map (modelItemLine nameWidth typeWidth))
      (modelItemLines nameWidth typeWidth afterField items) := by
  induction items generalizing afterField with
  | nil => exact .nil
  | cons item items ih =>
    cases item with
    | entry f => exact .line _ (ih true)
    | blockAttribute a =>
      cases afterField with
      | false => exact .line _ (ih false)
      | true => exact .blank _ (ih false)
    | comment text => exact .line _ (ih afterField)

/-- The line of an item of an enumeration. -/
def enumItemLine : Item EnumValue Attribute → List Char
  | .entry v => v.line
  | .blockAttribute a => blockAttributeLine a
  | .comment text => indented text.toList

theorem spaced_enumItemLines (items : List (Item EnumValue Attribute)) :
    Spaced (items.map enumItemLine) (items.flatMap enumItemLines) := by
  induction items with
  | nil => exact .nil
  | cons item items ih =>
    cases item with
    | entry v => exact .line _ ih
    | blockAttribute a => exact .blank _ ih
    | comment text => exact .line _ ih

section

variable {ε α : Type} {keyword name : String} {lines spaced : List (List Char)}

theorem isInkLine_brace : IsInkLine ['\x7d'] :=
  ⟨by decide, endsInk_concat [] (by decide)⟩

/-- A block is laid out when its items are, between its head and its closing brace. -/
theorem spaced_blockLines (hkeyword : (TokenKind.ident keyword).Lexical)
    (hname : (TokenKind.ident name).Lexical) (h : Spaced lines spaced)
    (hink : ∀ line ∈ lines, IsInkLine line) :
    Spaced (blockLines keyword name lines) (blockLines keyword name spaced) ∧
      ∀ line ∈ blockLines keyword name lines, IsInkLine line := by
  refine ⟨.line _ (h.append (.refl _)), ?_⟩
  rw [blockLines, List.forall_mem_cons, List.forall_mem_append]
  refine ⟨⟨?_, ?_⟩, hink, by simpa using isInkLine_brace⟩
  · simp [newline_notMem_name hkeyword, newline_notMem_name hname]
  · have hbrace := endsInk_concat [' '] (c := '\x7b') (by decide)
    exact EndsInk.append_left _ ((hbrace.append_left name.toList).append_left [' '])

variable {EntryLine : ε → List Char → Prop} {AttrLine : α → List Char → Prop}
  {items : List (Item ε α)} {line : Item ε α → List Char}

/-- Items that each have their line stand one by one. -/
theorem forall₂_map_isLine
    (h : ∀ item ∈ items, item.IsLine EntryLine AttrLine (line item) ∧ IsInkLine (line item)) :
    List.Forall₂ (Item.IsLine EntryLine AttrLine) items (items.map line) ∧
      ∀ text ∈ items.map line, IsInkLine text := by
  refine ⟨?_, ?_⟩
  · rw [List.forall₂_map_right_iff, List.forall₂_same]
    exact fun item hitem => (h item hitem).1
  · intro text htext
    obtain ⟨item, hitem, rfl⟩ := List.mem_map.1 htext
    exact (h item hitem).2

theorem entry_mem_entries {b : Named ε α} {e : ε} (h : .entry e ∈ b.items) : e ∈ b.entries :=
  List.mem_filterMap.2 ⟨.entry e, h, rfl⟩

theorem isInkLine_itemComment {Entry : List TokenKind → ε → Prop}
    {Attr : List TokenKind → α → Prop} {text : String}
    (h : ItemSpelled Entry Attr (.comment text)) : IsInkLine (indented text.toList) := by
  obtain ⟨ts, hitem, hts⟩ := h
  cases hitem
  exact (isInkLine_comment (hts _ (by simp))).indented

theorem isInkLine_itemAttribute {Entry : List TokenKind → ε → Prop} {a : Attribute}
    (h : ItemSpelled Entry IsAttribute (.blockAttribute a)) :
    IsInkLine (blockAttributeLine a) := by
  obtain ⟨ts, hitem, hts⟩ := h
  cases hitem with
  | blockAttribute ha => exact ha.isInkLine fun t ht => hts t (List.mem_cons_of_mem _ ht)

end

/-- The items of a model stand on lines, the fields in columns. -/
theorem modelItem_isLine {m : Model} {nameWidth typeWidth : UInt16}
    (hnames : columnWidth (m.entries.map fun f => f.name.toList) = .ok nameWidth)
    (htypes : columnWidth (m.entries.map Field.typeText) = .ok typeWidth)
    {item : Item Field Attribute} (hitem : item ∈ m.items)
    (h : ItemSpelled IsField IsAttribute item) :
    item.IsLine (Field.IsLine (nameWidth.toNat + 3) (nameWidth.toNat + typeWidth.toNat + 4))
        (fun a line => line = blockAttributeLine a) (modelItemLine nameWidth typeWidth item) ∧
      IsInkLine (modelItemLine nameWidth typeWidth item) := by
  cases item with
  | entry f =>
    obtain ⟨ts, ⟨hf⟩, hts⟩ := h
    have hentry := entry_mem_entries hitem
    exact hf.isLine hts (length_le_of_columnWidth hnames (List.mem_map_of_mem hentry))
      (length_le_of_columnWidth htypes (List.mem_map_of_mem hentry))
  | blockAttribute a => exact ⟨rfl, isInkLine_itemAttribute h⟩
  | comment text => exact ⟨rfl, isInkLine_itemComment h⟩

theorem enumItem_isLine {item : Item EnumValue Attribute}
    (h : ItemSpelled IsEnumValue IsAttribute item) :
    item.IsLine EnumValue.IsLine (fun a line => line = blockAttributeLine a) (enumItemLine item) ∧
      IsInkLine (enumItemLine item) := by
  cases item with
  | entry v =>
    obtain ⟨ts, ⟨hv⟩, hts⟩ := h
    exact hv.isLine hts
  | blockAttribute a => exact ⟨rfl, isInkLine_itemAttribute h⟩
  | comment text => exact ⟨rfl, isInkLine_itemComment h⟩

/-- The items of a block of settings stand on lines, the settings in columns. -/
theorem settingItem_isLine {s : SettingsBlock} {keyWidth : UInt16}
    (hkeys : columnWidth (s.entries.map fun e => e.key.toList) = .ok keyWidth)
    {item : Item Setting Empty} (hitem : item ∈ s.items)
    (h : ItemSpelled IsSetting (fun _ _ => False) item) :
    item.IsLine (Setting.IsLine (keyWidth.toNat + 3)) (fun _ _ => False)
        (settingItemLine keyWidth item) ∧
      IsInkLine (settingItemLine keyWidth item) := by
  cases item with
  | entry e =>
    obtain ⟨ts, ⟨he⟩, hts⟩ := h
    exact he.isLine hts
      (length_le_of_columnWidth hkeys (List.mem_map_of_mem (entry_mem_entries hitem)))
  | blockAttribute a => exact a.elim
  | comment text => exact ⟨rfl, isInkLine_itemComment h⟩

/-- The lines `all` of a block: what it says, line by line and in columns, with blank lines put
between; the first is none of these. -/
structure Block.IsLines (b : Block) (lines all : List (List Char)) : Prop where
  /-- What the block says. -/
  laidOut : b.LaidOut lines
  /-- Blank lines are put between. -/
  spaced : Spaced lines all
  /-- Something is on the other lines. -/
  ink : ∀ line ∈ lines, IsInkLine line
  /-- There is a first line. -/
  ne_nil : lines ≠ []
  /-- It is not a blank one. -/
  head?_eq : all.head? = lines.head?

theorem IsBlock.exists_isLines {ts : List TokenKind} {b : Block} (h : IsBlock ts b)
    (hts : AreLexical ts) {all : List (List Char)} (hlines : b.lines = .ok all) :
    ∃ lines, b.IsLines lines all := by
  cases h with
  | @model kind name ts items hbody =>
    obtain ⟨nameWidth, typeWidth, hnames, htypes, rfl⟩ := modelLines_eq_ok_iff.1 hlines
    have hspelled := hbody.itemSpelled fun t ht => hts t (by simp [ht])
    obtain ⟨hitems, hink⟩ := forall₂_map_isLine fun item hitem =>
      modelItem_isLine hnames htypes hitem (hspelled item hitem)
    obtain ⟨hspaced, hall⟩ := spaced_blockLines (lexical_modelKeyword kind)
      (hts (.ident name) (by simp)) (spaced_modelItemLines _ _ false items) hink
    exact ⟨_, ⟨_, _, _, rfl, hitems⟩, hspaced, hall, List.cons_ne_nil _ _, rfl⟩
  | @enumeration name ts items hbody =>
    obtain rfl := Except.ok.inj hlines
    have hspelled := hbody.itemSpelled fun t ht => hts t (by simp [ht])
    obtain ⟨hitems, hink⟩ := forall₂_map_isLine fun item hitem =>
      enumItem_isLine (hspelled item hitem)
    obtain ⟨hspaced, hall⟩ := spaced_blockLines lexical_enumKeyword
      (hts (.ident name) (by simp)) (spaced_enumItemLines items) hink
    exact ⟨_, ⟨_, rfl, hitems⟩, hspaced, hall, List.cons_ne_nil _ _, rfl⟩
  | @settings kind name ts items hbody =>
    obtain ⟨keyWidth, hkeys, rfl⟩ := settingsLines_eq_ok_iff.1 hlines
    have hspelled := hbody.itemSpelled fun t ht => hts t (by simp [ht])
    obtain ⟨hitems, hink⟩ := forall₂_map_isLine fun item hitem =>
      settingItem_isLine hkeys hitem (hspelled item hitem)
    obtain ⟨hspaced, hall⟩ := spaced_blockLines (lexical_settingsKeyword kind)
      (hts (.ident name) (by simp)) (.refl _) hink
    exact ⟨_, ⟨_, _, rfl, hitems⟩, hspaced, hall, List.cons_ne_nil _ _, rfl⟩

/-- **What a block says stands line by line**, in columns, with blank lines between. -/
theorem Block.Spelled.exists_isLines {b : Block} (h : b.Spelled) {all : List (List Char)}
    (hlines : b.lines = .ok all) : ∃ lines, b.IsLines lines all := by
  cases b with
  | comment text =>
    obtain rfl := Except.ok.inj hlines
    have hink : IsInkLine text.toList := isInkLine_comment h
    exact ⟨[text.toList], rfl, .refl _, by simpa using hink, List.cons_ne_nil _ _, rfl⟩
  | model kind m =>
    obtain ⟨ts, hb, hts⟩ := h
    exact hb.exists_isLines hts hlines
  | enumeration e =>
    obtain ⟨ts, hb, hts⟩ := h
    exact hb.exists_isLines hts hlines
  | settings kind s =>
    obtain ⟨ts, hb, hts⟩ := h
    exact hb.exists_isLines hts hlines

/-! ### Whole documents -/

/-- **Blocks stand one after the other**, blank lines between them or not. -/
theorem exists_forall₂_laidOut {bs : List Block} (h : ∀ b ∈ bs, b.Spelled)
    {spaced : List (List Char)} (hspaced : blocksLines bs = .ok spaced) :
    ∃ groups, List.Forall₂ Block.LaidOut bs groups ∧ Spaced groups.flatten spaced ∧
      (∀ line ∈ groups.flatten, IsInkLine line) ∧ (bs ≠ [] → groups.flatten ≠ []) ∧
      spaced.head? = groups.flatten.head? := by
  induction bs generalizing spaced with
  | nil =>
    obtain rfl := Except.ok.inj hspaced
    exact ⟨[], .nil, .nil, by simp, by simp, rfl⟩
  | cons b bs ih =>
    obtain ⟨hb, hbs⟩ := List.forall_mem_cons.1 h
    cases bs with
    | nil =>
      obtain ⟨lines, hlines⟩ := hb.exists_isLines hspaced
      refine ⟨[lines], .cons hlines.laidOut .nil, ?_⟩
      rw [List.flatten_singleton]
      exact ⟨hlines.spaced, hlines.ink, fun _ => hlines.ne_nil, hlines.head?_eq⟩
    | cons c cs =>
      obtain ⟨front, back, hfront, hback, rfl⟩ := blocksLines_eq_ok_iff.1 hspaced
      obtain ⟨lines, hlines⟩ := hb.exists_isLines hfront
      obtain ⟨groups, hgroups, hothers, hink, hne, hhead⟩ := ih hbs hback
      -- a blank line may stand in front of the lines of the other blocks
      have hgap : Spaced groups.flatten (b.gap ++ back) := by
        rw [Block.gap]
        split
        · exact hothers
        · exact hothers.blank_of_head? (hne (List.cons_ne_nil c cs)) hhead fun line hline =>
            (hink line hline).ink.ne_nil
      refine ⟨lines :: groups, .cons hlines.laidOut hgroups, ?_⟩
      rw [List.flatten_cons, List.append_assoc]
      refine ⟨hlines.spaced.append hgap, ?_, fun _ => ?_, ?_⟩
      · rw [List.forall_mem_append]
        exact ⟨hlines.ink, hink⟩
      · exact List.append_ne_nil_of_left_ne_nil hlines.ne_nil _
      · simp only [List.head?_append, hlines.head?_eq, List.head?_eq_some_head hlines.ne_nil,
          Option.some_or]

/-- **The layout of the canonical text.**  Of any document that was read, no line ends in a blank;
the text is empty or ends in exactly one line feed, starts with no blank line and has no two of them
in a row.  Apart from the blank ones its lines are those of the blocks, in order: of each its head,
one line for each item, its closing brace.  In a block of fields all types start at one column and
all first attributes at another, and in a block of settings all equals signs stand at one.  There is
such a text unless something in a column is too wide for it. -/
theorem canonical_layout {source : String} {d : Document}
    (h : Document.ofSource source = .ok d) :
    d.TextSatisfies fun text => IsTidy text.toList ∧
      ∃ groups, List.Forall₂ Block.LaidOut d.blocks groups ∧
        inkLines text.toList = groups.flatten := by
  refine Document.textSatisfies_of_forall fun text htext => ?_
  obtain ⟨spaced, hspaced, rfl⟩ := Document.text_eq_ok_iff.1 htext
  obtain ⟨groups, hgroups, hlines, hink, -, hhead⟩ :=
    exists_forall₂_laidOut (spelled_of_ofSource h) hspaced
  obtain ⟨htidy, hink⟩ := hlines.isTidy hhead hink
  rw [String.toList_ofList]
  exact ⟨htidy, groups, hgroups, hink⟩

/-- A schema with an escaped line feed, and a type that has more bytes than characters. -/
def wideSource : String :=
  "generator js \x7b\n  out = \"a\\nb\"\n\x7d\nmodel Place \x7b\n" ++
    "  id Int? @id @db.Int // ö\n  area Unsupported(\"größe\") @b\n\n\n  note String\n" ++
    "  @@map(\"p\")\n\x7d\n"

/-- What that schema says. -/
def wideDocument : Document :=
  ⟨[.settings .generator ⟨"js", [.entry ⟨"out", .string "a\nb", none⟩]⟩,
    .model .model ⟨"Place",
      [.entry ⟨"id", .named "Int", some .optional, [⟨"id", []⟩, ⟨"db.Int", []⟩], some "// ö"⟩,
        .entry ⟨"area", .unsupported "größe", none, [⟨"b", []⟩], none⟩,
        .entry ⟨"note", .named "String", none, [], none⟩,
        .blockAttribute ⟨"map", [⟨none, .string "p"⟩]⟩]⟩]⟩

theorem canonical_layout_sample :
    Document.ofSource wideSource = .ok wideDocument ∧ wideDocument.FitsColumns ∧
      ∃ text, wideDocument.text = .ok text ∧ IsTidy text.toList ∧
        ∃ groups, List.Forall₂ Block.LaidOut wideDocument.blocks groups ∧
          inkLines text.toList = groups.flatten := by
  have hread : Document.ofSource wideSource = .ok wideDocument := by cbv
  have hfits : wideDocument.FitsColumns := by decide +kernel
  exact ⟨hread, hfits, (canonical_layout hread).fits hfits⟩

/-- A block with one setting. -/
def settingSource (key : String) : String :=
  "generator js \x7b\n  " ++ key ++ " = 1\n\x7d\n"

/-- What that schema says. -/
def settingDocument (key : String) : Document :=
  ⟨[.settings .generator ⟨"js", [.entry ⟨key, .number "1", none⟩]⟩]⟩

theorem ofSource_settingSource {key : String} (hkey : (TokenKind.ident key).Lexical) :
    Document.ofSource (settingSource key) = .ok (settingDocument key) := by
  have hsource : settingSource key = String.ofList (joinLines (blockLines "generator" "js"
      [indented (key.toList ++ [' ', '=', ' ', '1'])])) := by
    apply String.toList_inj.1
    rw [String.toList_ofList]
    unfold settingSource
    simp [blockLines, indented]
  have hname : (TokenKind.ident "js").Lexical :=
    ⟨'j', ['s'], rfl, by decide, List.all_eq_true.1 (by decide)⟩
  have hone : (TokenKind.number "1").Lexical := ⟨'1', [], rfl, .inl (by decide), by simp⟩
  have hvalue := ((writes_number hone).space.punctuation (c := '=') rfl).space
  have hline := ((writes_name hkey).append hvalue (breaks_space _)).space.space
  rw [hsource]
  exact ofSource_blockLines (lexical_settingsKeyword .generator) hname hline.lineSpells
    (.settings .generator "js" (.newline (.entry (.intro key none (.number "1"))
      (.newline _) .close)))

theorem fitsColumns_settingDocument {key : String} :
    (settingDocument key).FitsColumns ↔ byteSize key.toList < UInt16.size := by
  have hcolumns : (Block.settings .generator ⟨"js", [.entry ⟨key, .number "1", none⟩]⟩).columns =
      [[key.toList]] := rfl
  simp only [Document.FitsColumns, settingDocument, hcolumns, List.forall_mem_singleton]

/-- A setting is read whose key no column has room for. -/
theorem wide_key_stops_layout :
    Document.ofSource (settingSource (longName UInt16.size)) =
        .ok (settingDocument (longName UInt16.size)) ∧
      (settingDocument (longName UInt16.size)).text = .error .tooWide := by
  have hkey : (TokenKind.ident (longName UInt16.size)).Lexical := lexical_longName (by decide)
  refine ⟨ofSource_settingSource hkey, Document.text_eq_error ?_⟩
  rw [fitsColumns_settingDocument, byteSize_longName]
  exact Nat.lt_irrefl _

end SchemaForge.Schema
