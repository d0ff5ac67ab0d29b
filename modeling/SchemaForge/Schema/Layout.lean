import SchemaForge.Schema.Document
import SchemaForge.Text.Blank
import SchemaForge.Text.Utf8

/-!
# The canonical layout of a document

A document is laid out line by line.  Within a model the types of the fields and their first
attributes stand in columns, and so do the equals signs of a block of settings.  Declarations are
a blank line apart; a comment stays with the declaration after it.

The width of a column is a number of sixteen bits.  A document with a text that is wider than that
in one of its columns cannot be laid out at all.

## Main definitions

* `quote` — a text as a quoted lexeme.
* `Value.text`, `Attribute.text` — the parts of a line.
* `LayoutFault`, `columnWidth` — the width of a column, and why there may be none.
* `Document.lines`, `Document.text` — the lines of a document, and its whole text.
-/

namespace SchemaForge.Schema

open Text

/-! ### Parts of lines -/

/-- A character inside a quoted text. -/
def escape (c : Char) : List Char :=
  match c with
  | '"' => ['\\', '"']
  | '\\' => ['\\', '\\']
  | '\n' => ['\\', 'n']
  | '\t' => ['\\', 't']
  | '\r' => ['\\', 'r']
  | other => [other]

/-- A text as a quoted lexeme. -/
def quote (text : List Char) : List Char :=
  '"' :: (text.flatMap escape ++ ['"'])

/-- What stands in front of an argument's value. -/
def argumentMark : Option String → List Char
  | some name => name.toList ++ [':', ' ']
  | none => []

mutual

/-- A value as it is written. -/
def Value.text : Value → List Char
  | .string s => quote s.toList
  | .number digits => digits.toList
  | .boolean true => ['t', 'r', 'u', 'e']
  | .boolean false => ['f', 'a', 'l', 's', 'e']
  | .ident name => name.toList
  | .array vs => '[' :: (valuesText vs ++ [']'])
  | .call name args => name.toList ++ '(' :: (argumentsText args ++ [')'])

/-- Values with commas between them. -/
def valuesText : List Value → List Char
  | [] => []
  | [v] => v.text
  | v :: vs => v.text ++ ',' :: ' ' :: valuesText vs

/-- Arguments with commas between them. -/
def argumentsText : List (Argument Value) → List Char
  | [] => []
  | [⟨name, v⟩] => argumentMark name ++ v.text
  | ⟨name, v⟩ :: args => argumentMark name ++ v.text ++ ',' :: ' ' :: argumentsText args

end

/-- An attribute without its mark; parentheses stand only around arguments. -/
def Attribute.text (a : Attribute) : List Char :=
  if a.args.isEmpty then a.name.toList
  else a.name.toList ++ '(' :: (argumentsText a.args ++ [')'])

/-- The attributes of a line, each with its mark and a space in front. -/
def attributesText (as : List Attribute) : List Char :=
  as.flatMap fun a => ' ' :: '@' :: a.text

/-- The declared type of a field. -/
def FieldType.text : FieldType → List Char
  | named name => name.toList
  | unsupported native => "Unsupported(".toList ++ quote native.toList ++ [')']

/-- What follows the type of a field. -/
def modifierText : Option Modifier → List Char
  | some .optional => ['?']
  | some .list => ['[', ']']
  | none => []

/-- The type of a field with what follows it. -/
def Field.typeText (f : Field) : List Char :=
  f.type.text ++ modifierText f.modifier

/-! ### Columns -/

/-- Why a document cannot be laid out. -/
inductive LayoutFault where
  /-- A column is too wide for its width to be said in sixteen bits. -/
  | tooWide
  deriving DecidableEq, Repr, Inhabited

/-- The report of a fault. -/
def LayoutFault.message : LayoutFault → String
  | tooWide => "Formatting argument out of range"

/-- The room that the widest of some texts asks for: a text asks for its length in bytes. -/
def widest (texts : List (List Char)) : Nat :=
  texts.foldl (fun width text => max width (Text.byteSize text)) 0

/-- The width of a column of texts. -/
def columnWidth (texts : List (List Char)) : Except LayoutFault UInt16 :=
  if h : widest texts < UInt16.size then .ok (.ofNatLT (widest texts) h) else .error .tooWide

/-- A text with spaces behind it, up to a number of characters. -/
def padTo (width : UInt16) (text : List Char) : List Char :=
  text ++ List.replicate (width.toNat - text.length) ' '

/-! ### Lines -/

/-- A line, without the blanks at its end, and the comment behind it. -/
def withComment (line : List Char) : Option String → List Char
  | some comment => trimEnd line ++ ' ' :: comment.toList
  | none => trimEnd line

/-- A line of a block: two spaces in front. -/
def indented (line : List Char) : List Char :=
  ' ' :: ' ' :: line

/-- A block attribute on its line. -/
def blockAttributeLine (a : Attribute) : List Char :=
  indented ('@' :: '@' :: a.text)

/-- A field on its line, in columns of the given widths. -/
def Field.line (nameWidth typeWidth : UInt16) (f : Field) : List Char :=
  withComment (indented (padTo nameWidth f.name.toList ++ ' ' ::
    (padTo typeWidth f.typeText ++ attributesText f.attributes))) f.comment

/-- The lines of a model's items.  A block attribute has a blank line in front when a field has
come since the last one. -/
def modelItemLines (nameWidth typeWidth : UInt16) (afterField : Bool) :
    List (Item Field Attribute) → List (List Char)
  | [] => []
  | .entry f :: rest =>
    f.line nameWidth typeWidth :: modelItemLines nameWidth typeWidth true rest
  | .blockAttribute a :: rest =>
    (if afterField then [[]] else []) ++
      blockAttributeLine a :: modelItemLines nameWidth typeWidth false rest
  | .comment text :: rest =>
    indented text.toList :: modelItemLines nameWidth typeWidth afterField rest

/-- An enumeration value on its line. -/
def EnumValue.line (v : EnumValue) : List Char :=
  withComment (indented (v.name.toList ++ attributesText v.attributes)) v.comment

/-- The lines of one item of an enumeration.  A block attribute has a blank line in front. -/
def enumItemLines : Item EnumValue Attribute → List (List Char)
  | .entry v => [v.line]
  | .blockAttribute a => [[], blockAttributeLine a]
  | .comment text => [indented text.toList]

/-- A setting on its line, its key in a column of the given width. -/
def Setting.line (keyWidth : UInt16) (s : Setting) : List Char :=
  withComment (indented (padTo keyWidth s.key.toList ++ ' ' :: '=' :: ' ' :: s.value.text))
    s.comment

/-- The line of one item of a block of settings. -/
def settingItemLine (keyWidth : UInt16) : Item Setting Empty → List Char
  | .entry s => s.line keyWidth
  | .comment text => indented text.toList

/-! ### Blocks -/

/-- The lines of a block: its head, its items, its closing brace. -/
def blockLines (keyword name : String) (items : List (List Char)) : List (List Char) :=
  (keyword.toList ++ ' ' :: (name.toList ++ [' ', '\x7b'])) :: (items ++ [['\x7d']])

/-- The lines of a model. -/
def modelLines (kind : ModelKind) (m : Model) : Except LayoutFault (List (List Char)) := do
  let nameWidth ← columnWidth (m.entries.map fun f => f.name.toList)
  let typeWidth ← columnWidth (m.entries.map Field.typeText)
  return blockLines kind.keyword m.name (modelItemLines nameWidth typeWidth false m.items)

/-- The lines of an enumeration.  Nothing in it stands in a column. -/
def enumLines (e : Enumeration) : List (List Char) :=
  blockLines enumKeyword e.name (e.items.flatMap enumItemLines)

/-- The lines of a block of settings. -/
def settingsLines (kind : SettingsKind) (s : SettingsBlock) :
    Except LayoutFault (List (List Char)) := do
  let keyWidth ← columnWidth (s.entries.map fun e => e.key.toList)
  return blockLines kind.keyword s.name (s.items.map (settingItemLine keyWidth))

/-- The lines of a block. -/
def Block.lines : Block → Except LayoutFault (List (List Char))
  | model kind m => modelLines kind m
  | enumeration e => .ok (enumLines e)
  | settings kind s => settingsLines kind s
  | comment text => .ok [text.toList]

/-- Whether a block keeps the one after it close. -/
def Block.isComment : Block → Bool
  | comment _ => true
  | _ => false

/-- What stands between a block and the one after it: a blank line, and nothing after a comment. -/
def Block.gap (b : Block) : List (List Char) :=
  if b.isComment then [] else [[]]

/-- The lines of a row of blocks. -/
def blocksLines : List Block → Except LayoutFault (List (List Char))
  | [] => .ok []
  | [b] => b.lines
  | b :: rest => do
    let lines ← b.lines
    let others ← blocksLines rest
    return lines ++ b.gap ++ others

/-- The lines of a document. -/
def Document.lines (d : Document) : Except LayoutFault (List (List Char)) :=
  blocksLines d.blocks

/-- Lines, each with a line feed behind it. -/
def joinLines (lines : List (List Char)) : List Char :=
  lines.flatMap (· ++ ['\n'])

/-- The canonical text of a document. -/
def Document.text (d : Document) : Except LayoutFault String := do
  return String.ofList (joinLines (← d.lines))

end SchemaForge.Schema
