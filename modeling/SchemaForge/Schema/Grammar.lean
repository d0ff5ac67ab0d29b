import SchemaForge.Schema.Document
import SchemaForge.Schema.Token

/-!
# Reading a document from tokens

Each reader takes a row of token kinds and gives what it read with the tokens that follow, which
are fewer; that is why reading ends.  Positions play no part here: a fault says how many tokens
were left, and `TokenRow.positionBefore` turns that into a place.

## Main definitions

* `Fault` — why a row of tokens is no schema, and how many tokens were left.
* `Parsed` — what was read, and what follows it.
* `readValue`, `readArguments`, `readAttribute`, `readItems` — the readers of the parts.
* `Document.ofKinds` — the document that a whole row of tokens spells.
-/

namespace SchemaForge.Schema

/-- What could have followed. -/
inductive Expected where
  /-- This very token. -/
  | token (kind : TokenKind)
  /-- A name. -/
  | identifier
  /-- The end of the line. -/
  | lineEnd
  /-- A quoted text. -/
  | quoted
  /-- A value. -/
  | value
  /-- A top-level declaration. -/
  | block
  /-- A line of a model or its end. -/
  | modelItem
  /-- A line of an enumeration or its end. -/
  | enumItem
  /-- A line of a block of settings or its end. -/
  | setting
  deriving DecidableEq, Repr, Inhabited

/-- What could have followed, as messages name it. -/
def Expected.describe : Expected → String
  | token kind => kind.describe
  | identifier => "identifier"
  | lineEnd => "end of line"
  | quoted => "string"
  | value => "value"
  | block => "a model, enum, datasource or generator block"
  | modelItem => "field, block attribute or '\x7d'"
  | enumItem => "enum value or '\x7d'"
  | setting => "assignment or '\x7d'"

/-- Why a row of tokens is no schema. -/
inductive Mismatch where
  /-- Something else was expected than what was found; `none` is the end of the input. -/
  | unexpected (expected : Expected) (found : Option TokenKind)
  /-- No declaration has this keyword. -/
  | unknownBlock (keyword : String)
  deriving DecidableEq, Repr, Inhabited

/-- The report of a mismatch. -/
def Mismatch.message : Mismatch → String
  | unexpected expected found =>
    "Expected " ++ expected.describe ++ ", found " ++ describeFound found
  | unknownBlock keyword => "Unknown block type '" ++ keyword ++ "'"

/-- A mismatch, with the number of tokens from the one at fault to the end. -/
structure Fault where
  /-- What is wrong. -/
  mismatch : Mismatch
  /-- How many tokens are left, the one at fault included. -/
  remaining : Nat
  deriving DecidableEq, Repr, Inhabited

/-- The fault of a row of tokens whose first should have been something else. -/
def expected (what : Expected) (ts : List TokenKind) : Fault :=
  ⟨.unexpected what ts.head?, ts.length⟩

/-- What was read from a row of tokens, and the fewer than `bound` tokens that follow it. -/
structure Parsed (α : Type) (bound : Nat) where
  /-- What was read. -/
  value : α
  /-- What follows it. -/
  rest : List TokenKind
  /-- Something was read. -/
  shorter : rest.length < bound

/-- What one reader gives for the tokens `ts`. -/
abbrev Result (α : Type) (ts : List TokenKind) : Type :=
  Except Fault (Parsed α ts.length)

/-- A row of tokens without the line ends at its head. -/
def skipNewlines : List TokenKind → List TokenKind
  | .newline :: ts => skipNewlines ts
  | ts => ts

theorem skipNewlines_length_le (ts : List TokenKind) :
    (skipNewlines ts).length ≤ ts.length := by
  fun_induction skipNewlines ts with
  | case1 ts ih => simp only [List.length_cons]; omega
  | case2 => exact Nat.le_refl _

/-! ### Values and arguments -/

mutual

/-- Read a value. -/
def readValue (ts : List TokenKind) : Result Value ts :=
  match ts with
  | .str s :: rest => .ok ⟨.string s, rest, by simp⟩
  | .number n :: rest => .ok ⟨.number n, rest, by simp⟩
  | .lbracket :: rest => do
    let ⟨vs, rest', _⟩ ← readValues rest
    return ⟨.array vs, rest', by simp only [List.length_cons]; omega⟩
  | .ident name :: .lparen :: rest => do
    let ⟨args, rest', _⟩ ← readArguments rest
    return ⟨.call name args, rest', by simp only [List.length_cons]; omega⟩
  | .ident name :: rest => .ok ⟨.ofName name, rest, by simp⟩
  | ts => .error (expected .value ts)
termination_by (ts.length, 0)

/-- Read the values of a list after its opening bracket, through the closing one. -/
def readValues (ts : List TokenKind) : Result (List Value) ts :=
  have hs := skipNewlines_length_le ts
  match hn : skipNewlines ts with
  | .rbracket :: rest => .ok ⟨[], rest, by rw [hn] at hs; simp at hs; omega⟩
  | head => do
    let ⟨v, after, _⟩ ← readValue head
    have ha := skipNewlines_length_le after
    match hm : skipNewlines after with
    | .comma :: rest =>
      let ⟨vs, rest', _⟩ ← readValues rest
      return ⟨v :: vs, rest', by rw [hn] at hs; rw [hm] at ha; simp at ha; omega⟩
    | .rbracket :: rest => return ⟨[v], rest, by rw [hn] at hs; rw [hm] at ha; simp at ha; omega⟩
    | rest => throw (expected (.token .rbracket) rest)
termination_by (ts.length, 1)
decreasing_by
  · rw [hn] at hs; simp only [Prod.lex_def]; omega
  · rw [hn] at hs; rw [hm] at ha; simp at ha; simp only [Prod.lex_def]; omega

/-- Read an argument. -/
def readArgument (ts : List TokenKind) : Result (Argument Value) ts :=
  match ts with
  | .ident name :: .colon :: rest => do
    let ⟨v, rest', _⟩ ← readValue rest
    return ⟨⟨some name, v⟩, rest', by simp only [List.length_cons]; omega⟩
  | ts => do
    let ⟨v, rest, h⟩ ← readValue ts
    return ⟨⟨none, v⟩, rest, h⟩
termination_by (ts.length, 1)

/-- Read arguments after their opening parenthesis, through the closing one. -/
def readArguments (ts : List TokenKind) : Result (List (Argument Value)) ts :=
  have hs := skipNewlines_length_le ts
  match hn : skipNewlines ts with
  | .rparen :: rest => .ok ⟨[], rest, by rw [hn] at hs; simp at hs; omega⟩
  | head => do
    let ⟨a, after, _⟩ ← readArgument head
    have ha := skipNewlines_length_le after
    match hm : skipNewlines after with
    | .comma :: rest =>
      let ⟨as, rest', _⟩ ← readArguments rest
      return ⟨a :: as, rest', by rw [hn] at hs; rw [hm] at ha; simp at ha; omega⟩
    | .rparen :: rest => return ⟨[a], rest, by rw [hn] at hs; rw [hm] at ha; simp at ha; omega⟩
    | rest => throw (expected (.token .rparen) rest)
termination_by (ts.length, 2)
decreasing_by
  · rw [hn] at hs; simp only [Prod.lex_def]; omega
  · rw [hn] at hs; rw [hm] at ha; simp at ha; simp only [Prod.lex_def]; omega

end

/-! ### Attributes and the ends of lines -/

/-- Read a name. -/
def readName (ts : List TokenKind) : Result String ts :=
  match ts with
  | .ident name :: rest => .ok ⟨name, rest, by simp⟩
  | ts => .error (expected .identifier ts)

/-- Read the parts of a dotted name after its first, each behind a dot, and add them to what was
read before. -/
def readDottedName (read : String) (ts : List TokenKind) :
    Except Fault (Parsed String (ts.length + 1)) :=
  match ts with
  | .dot :: rest => do
    let ⟨part, after, _⟩ ← readName rest
    let ⟨name, rest', _⟩ ← readDottedName (read ++ "." ++ part) after
    return ⟨name, rest', by simp only [List.length_cons]; omega⟩
  | ts => .ok ⟨read, ts, by omega⟩
termination_by ts.length
decreasing_by simp only [List.length_cons]; omega

/-- Read an attribute after its mark. -/
def readAttribute (ts : List TokenKind) : Result Attribute ts := do
  let ⟨first, after, _⟩ ← readName ts
  let ⟨name, after', _⟩ ← readDottedName first after
  match hp : after' with
  | .lparen :: rest =>
    let ⟨args, rest', _⟩ ← readArguments rest
    return ⟨⟨name, args⟩, rest', by subst hp; simp at *; omega⟩
  | rest => return ⟨⟨name, []⟩, rest, by subst hp; omega⟩

/-- Read the attributes of a line, each behind its mark. -/
def readAttributes (ts : List TokenKind) :
    Except Fault (Parsed (List Attribute) (ts.length + 1)) :=
  match ts with
  | .at :: rest => do
    let ⟨a, after, _⟩ ← readAttribute rest
    let ⟨as, rest', _⟩ ← readAttributes after
    return ⟨a :: as, rest', by simp only [List.length_cons]; omega⟩
  | ts => .ok ⟨[], ts, by omega⟩
termination_by ts.length
decreasing_by simp only [List.length_cons]; omega

/-- Read the end of a line: a line end, or nothing where the block or the input ends. -/
def readLineEnd (ts : List TokenKind) : Except Fault (Parsed Unit (ts.length + 1)) :=
  match ts with
  | .newline :: rest => .ok ⟨(), rest, by simp only [List.length_cons]; omega⟩
  | .rbrace :: rest => .ok ⟨(), .rbrace :: rest, by omega⟩
  | [] => .ok ⟨(), [], by simp⟩
  | ts => .error (expected .lineEnd ts)

/-- Read the comment that may stand before the end of a line, and that end. -/
def readCommentedEnd (ts : List TokenKind) :
    Except Fault (Parsed (Option String) (ts.length + 1)) :=
  match ts with
  | .comment text :: rest => do
    let ⟨_, rest', _⟩ ← readLineEnd rest
    return ⟨some text, rest', by simp only [List.length_cons]; omega⟩
  | ts => do
    let ⟨_, rest, h⟩ ← readLineEnd ts
    return ⟨none, rest, h⟩

/-! ### Lines of blocks -/

/-- The name of the type whose argument is a type of the database. -/
def unsupportedName : String := "Unsupported"

/-- Read the type of a field. -/
def readFieldType (ts : List TokenKind) : Result FieldType ts := do
  let ⟨name, after, _⟩ ← readName ts
  match hp : after with
  | .lparen :: rest =>
    if name = unsupportedName then
      match hr : rest with
      | .str native :: .rparen :: rest' =>
        return ⟨.unsupported native, rest', by subst hr hp; simp at *; omega⟩
      | .str _ :: rest' => throw (expected (.token .rparen) rest')
      | _ => throw (expected .quoted rest)
    else return ⟨.named name, after, by subst hp; assumption⟩
  | _ => return ⟨.named name, after, by subst hp; assumption⟩

/-- Read what may follow the type of a field. -/
def readModifier (ts : List TokenKind) :
    Except Fault (Parsed (Option Modifier) (ts.length + 1)) :=
  match ts with
  | .question :: rest => .ok ⟨some .optional, rest, by simp only [List.length_cons]; omega⟩
  | .lbracket :: .rbracket :: rest =>
    .ok ⟨some .list, rest, by simp only [List.length_cons]; omega⟩
  | .lbracket :: rest => .error (expected (.token .rbracket) rest)
  | ts => .ok ⟨none, ts, by omega⟩

/-- Read a field and the end of its line. -/
def readField (ts : List TokenKind) : Result Field ts := do
  let ⟨name, ts₁, _⟩ ← readName ts
  let ⟨type, ts₂, _⟩ ← readFieldType ts₁
  let ⟨modifier, ts₃, _⟩ ← readModifier ts₂
  let ⟨attributes, ts₄, _⟩ ← readAttributes ts₃
  let ⟨comment, ts₅, _⟩ ← readCommentedEnd ts₄
  return ⟨⟨name, type, modifier, attributes, comment⟩, ts₅, by omega⟩

/-- Read an enumeration value and the end of its line. -/
def readEnumValue (ts : List TokenKind) : Result EnumValue ts := do
  let ⟨name, ts₁, _⟩ ← readName ts
  let ⟨attributes, ts₂, _⟩ ← readAttributes ts₁
  let ⟨comment, ts₃, _⟩ ← readCommentedEnd ts₂
  return ⟨⟨name, attributes, comment⟩, ts₃, by omega⟩

/-- Read a setting and the end of its line. -/
def readSetting (ts : List TokenKind) : Result Setting ts := do
  let ⟨key, ts₁, _⟩ ← readName ts
  match hp : ts₁ with
  | .equals :: ts₂ =>
    let ⟨value, ts₃, _⟩ ← readValue ts₂
    let ⟨comment, ts₄, _⟩ ← readCommentedEnd ts₃
    return ⟨⟨key, value, comment⟩, ts₄, by subst hp; simp at *; omega⟩
  | _ => throw (expected (.token .equals) ts₁)

/-! ### Blocks -/

/-- How the lines of a block are read. -/
structure ItemRules (ε α : Type) where
  /-- Read an entry, which starts with a name. -/
  entry : (ts : List TokenKind) → Result ε ts
  /-- The attributes of the whole block, if it may have any. -/
  blockAttribute : Option (Attribute → α)
  /-- What messages say a line may be. -/
  expected : Expected

/-- A block attribute, with the comment behind it as a line of its own. -/
def attributeItems {ε α : Type} (a : α) : Option String → List (Item ε α)
  | some text => [.blockAttribute a, .comment text]
  | none => [.blockAttribute a]

/-- Read the lines of a block after its opening brace, through the closing one. -/
def readItems {ε α : Type} (rules : ItemRules ε α) (ts : List TokenKind) :
    Result (List (Item ε α)) ts :=
  match ts with
  | .rbrace :: rest => .ok ⟨[], rest, by simp⟩
  | .newline :: rest => do
    let ⟨more, rest', _⟩ ← readItems rules rest
    return ⟨more, rest', by simp only [List.length_cons]; omega⟩
  | .comment text :: rest => do
    let ⟨more, rest', _⟩ ← readItems rules rest
    return ⟨.comment text :: more, rest', by simp only [List.length_cons]; omega⟩
  | .ident name :: rest => do
    let ⟨e, after, _⟩ ← rules.entry (.ident name :: rest)
    let ⟨more, rest', _⟩ ← readItems rules after
    return ⟨.entry e :: more, rest', by omega⟩
  | .atAt :: rest =>
    match rules.blockAttribute with
    | none => .error (expected rules.expected (.atAt :: rest))
    | some wrap => do
      let ⟨a, ts₁, _⟩ ← readAttribute rest
      let ⟨comment, ts₂, _⟩ ← readCommentedEnd ts₁
      let ⟨more, rest', _⟩ ← readItems rules ts₂
      return ⟨attributeItems (wrap a) comment ++ more, rest',
        by simp only [List.length_cons]; omega⟩
  | ts => .error (expected rules.expected ts)
termination_by ts.length
decreasing_by all_goals simp only [List.length_cons] at *; omega

/-- Read the name and the lines of a block. -/
def readNamed {ε α : Type} (rules : ItemRules ε α) (ts : List TokenKind) :
    Result (Named ε α) ts := do
  let ⟨name, after, _⟩ ← readName ts
  match hp : after with
  | .lbrace :: rest =>
    let ⟨lines, rest', _⟩ ← readItems rules rest
    return ⟨⟨name, lines⟩, rest', by subst hp; simp at *; omega⟩
  | _ => throw (expected (.token .lbrace) after)

/-- The lines of a model. -/
def modelRules : ItemRules Field Attribute := ⟨readField, some id, .modelItem⟩

/-- The lines of an enumeration. -/
def enumRules : ItemRules EnumValue Attribute := ⟨readEnumValue, some id, .enumItem⟩

/-- The lines of a block of settings. -/
def settingsRules : ItemRules Setting Empty := ⟨readSetting, none, .setting⟩

/-- How the block after a keyword is read, if the keyword has one. -/
def readBlockAfter (keyword : String) (ts : List TokenKind) : Option (Result Block ts) :=
  match keyword with
  | "model" => some (model .model)
  | "type" => some (model .composite)
  | "view" => some (model .view)
  | "enum" => some do
    let ⟨e, rest, h⟩ ← readNamed enumRules ts
    return ⟨.enumeration e, rest, h⟩
  | "datasource" => some (settings .datasource)
  | "generator" => some (settings .generator)
  | _ => none
where
  /-- Read a block of fields. -/
  model (kind : ModelKind) : Result Block ts := do
    let ⟨m, rest, h⟩ ← readNamed modelRules ts
    return ⟨.model kind m, rest, h⟩
  /-- Read a block of settings. -/
  settings (kind : SettingsKind) : Result Block ts := do
    let ⟨s, rest, h⟩ ← readNamed settingsRules ts
    return ⟨.settings kind s, rest, h⟩

/-- Read the declarations and comments of a whole row of tokens. -/
def readBlocks (ts : List TokenKind) : Except Fault (List Block) :=
  match ts with
  | [] => .ok []
  | .newline :: rest => readBlocks rest
  | .comment text :: rest => do
    let more ← readBlocks rest
    return .comment text :: more
  | .ident keyword :: rest =>
    match readBlockAfter keyword rest with
    | none => .error ⟨.unknownBlock keyword, rest.length + 1⟩
    | some result => do
      let ⟨block, after, _⟩ ← result
      let more ← readBlocks after
      return block :: more
  | ts => .error (expected .block ts)
termination_by ts.length
decreasing_by all_goals simp only [List.length_cons]; omega

/-- The document that a row of tokens spells. -/
def Document.ofKinds (ts : List TokenKind) : Except Fault Document :=
  (readBlocks ts).map Document.mk

end SchemaForge.Schema
