import Mathlib
import SchemaForge.Schema.Grammar

/-!
# The grammar of the schema language

Which rows of tokens spell a document, and which document they spell.  Every relation pairs the
tokens of a part with the tree of that part, so a derivation carries its tree with it; nothing
here reads tokens from left to right, and nothing looks ahead but the end of a line, which may be
the closing brace of its block.

## Main definitions

* `CommaList` — elements with commas between them, line ends around both, and perhaps a comma
  behind the last.
* `IsValue`, `IsArgument`, `IsAttribute` — values and what they are given to.
* `IsField`, `IsEnumValue`, `IsSetting` — the entries of a block, without the end of their line.
* `IsBody` — the lines of a block, through its closing brace.
* `IsBlock`, `IsSchema` — declarations, and whole schemas.

## Main results

* `CommaList.readInduction` — a comma list as it is read: an element, then a comma, then a list.
* `IsValue.induction` — induction on values through the lists inside them.
-/

namespace SchemaForge.Schema

/-! ### Lists with commas -/

/-- A row of line ends. -/
abbrev newlines (n : Nat) : List TokenKind := List.replicate n .newline

section

variable {α : Type}

/-- What follows the first element of a comma list: more elements, each behind a comma, and then
line ends among which one last comma may stand. -/
inductive CommaTail (P : List TokenKind → α → Prop) : List TokenKind → List α → Prop
  /-- The list ends without a last comma. -/
  | done (n : Nat) : CommaTail P (newlines n) []
  /-- The list ends with a last comma. -/
  | trailing (m n : Nat) : CommaTail P (newlines m ++ .comma :: newlines n) []
  /-- Another element. -/
  | more (m n : Nat) {us ts : List TokenKind} {a : α} {as : List α} :
      P us a → CommaTail P ts as →
      CommaTail P (newlines m ++ .comma :: (newlines n ++ us ++ ts)) (a :: as)

/-- Elements with commas between them. -/
inductive CommaList (P : List TokenKind → α → Prop) : List TokenKind → List α → Prop
  /-- No element. -/
  | empty (n : Nat) : CommaList P (newlines n) []
  /-- At least one element. -/
  | elements (n : Nat) {us ts : List TokenKind} {a : α} {as : List α} :
      P us a → CommaTail P ts as → CommaList P (newlines n ++ us ++ ts) (a :: as)

variable {P Q : List TokenKind → α → Prop} {ts us : List TokenKind} {a : α} {as : List α}

theorem CommaTail.imp (h : CommaTail P ts as)
    (hPQ : ∀ us a, us.length ≤ ts.length → P us a → Q us a) : CommaTail Q ts as := by
  induction h with
  | done n => exact .done n
  | trailing m n => exact .trailing m n
  | more m n hp _ ih =>
    refine .more m n (hPQ _ _ ?_ hp) (ih fun us a hlen => hPQ us a ?_)
    · simp only [List.length_append, List.length_cons]; omega
    · simp only [List.length_append, List.length_cons]; omega

/-- Elements may be read differently, one by one; they are no longer than the list. -/
theorem CommaList.imp (h : CommaList P ts as)
    (hPQ : ∀ us a, us.length ≤ ts.length → P us a → Q us a) : CommaList Q ts as := by
  cases h with
  | empty n => exact .empty n
  | elements n hp ht =>
    refine .elements n (hPQ _ _ ?_ hp) (ht.imp fun us a hlen => hPQ us a ?_)
    · simp only [List.length_append]; omega
    · simp only [List.length_append]; omega

theorem CommaList.single (m n : Nat) (h : P us a) :
    CommaList P (newlines m ++ us ++ newlines n) [a] :=
  .elements m h (.done n)

/-- A comma and another list may follow an element: an empty list makes the comma the last. -/
theorem CommaList.cons (m n : Nat) (h : P us a) (hl : CommaList P ts as) :
    CommaList P (newlines m ++ us ++ (newlines n ++ .comma :: ts)) (a :: as) := by
  cases hl with
  | empty k => exact .elements m h (.trailing n k)
  | elements k hp ht => exact .elements m h (.more n k hp ht)

/-- **Induction on a comma list in the order it is read.**  The grammar gathers the elements
behind the first in a tail; a reader sees an element, a comma, and then a list again. -/
theorem CommaList.readInduction {motive : ∀ ts as, CommaList P ts as → Prop}
    (empty : ∀ n, motive _ _ (.empty n))
    (single : ∀ m n us a (hp : P us a), motive _ _ (.single m n hp))
    (cons : ∀ m n us a ts as (hp : P us a) (hl : CommaList P ts as), motive _ _ hl →
      motive _ _ (.cons m n hp hl))
    {ts : List TokenKind} {as : List α} (h : CommaList P ts as) : motive ts as h := by
  cases h with
  | empty n => exact empty n
  | elements k hp ht =>
    -- on the tail, for every element that may stand in front of it
    rename_i us ts a as
    induction ht generalizing k us a with
    | done n => exact single k n us a hp
    | trailing m n => exact cons k m us a _ [] hp (.empty n) (empty n)
    | more m n hq ht ih => exact cons k m us a _ _ hp (.elements n hq ht) (ih n hq)

end

/-! ### Values and arguments -/

/-- An argument is a value, or a name, a colon and a value. -/
inductive IsArgument (P : List TokenKind → Value → Prop) :
    List TokenKind → Argument Value → Prop
  /-- A value alone. -/
  | positional {ts : List TokenKind} {v : Value} : P ts v → IsArgument P ts ⟨none, v⟩
  /-- A value with a name. -/
  | named {ts : List TokenKind} {v : Value} (name : String) :
      P ts v → IsArgument P (.ident name :: .colon :: ts) ⟨some name, v⟩

theorem IsArgument.imp {P Q : List TokenKind → Value → Prop} {ts : List TokenKind}
    {a : Argument Value} (h : IsArgument P ts a)
    (hPQ : ∀ us v, us.length ≤ ts.length → P us v → Q us v) : IsArgument Q ts a := by
  cases h with
  | positional hp => exact .positional (hPQ _ _ (Nat.le_refl _) hp)
  | named name hp => exact .named name (hPQ _ _ (by simp only [List.length_cons]; omega) hp)

/-- The tokens of a value.  A name alone may stand for a truth value. -/
inductive IsValue : List TokenKind → Value → Prop
  /-- A quoted text. -/
  | string (s : String) : IsValue [.str s] (.string s)
  /-- A number. -/
  | number (n : String) : IsValue [.number n] (.number n)
  /-- A name alone. -/
  | name (n : String) : IsValue [.ident n] (.ofName n)
  /-- A name with arguments. -/
  | call (name : String) {ts : List TokenKind} {args : List (Argument Value)} :
      CommaList (IsArgument IsValue) ts args →
      IsValue (.ident name :: .lparen :: (ts ++ [.rparen])) (.call name args)
  /-- Values in square brackets. -/
  | array {ts : List TokenKind} {vs : List Value} :
      CommaList IsValue ts vs → IsValue (.lbracket :: (ts ++ [.rbracket])) (.array vs)

/-- **Induction on the derivation of a value.**  What holds of the values inside a list comes
with the list. -/
theorem IsValue.induction {motive : ∀ ts v, IsValue ts v → Prop}
    (string : ∀ s, motive _ _ (.string s))
    (number : ∀ n, motive _ _ (.number n))
    (name : ∀ n, motive _ _ (.name n))
    (call : ∀ name ts args (hl : CommaList (IsArgument IsValue) ts args),
      CommaList (IsArgument fun us v => ∃ h, motive us v h) ts args →
      motive _ _ (.call name hl))
    (array : ∀ ts vs (hl : CommaList IsValue ts vs),
      CommaList (fun us v => ∃ h, motive us v h) ts vs → motive _ _ (.array hl))
    {ts : List TokenKind} {v : Value} (h : IsValue ts v) : motive ts v h := by
  -- on the number of tokens: whatever stands inside brackets is shorter
  induction hn : ts.length using Nat.strongRecOn generalizing ts v with
  | ind n ih =>
    cases h with
    | string s => exact string s
    | number k => exact number k
    | name k => exact name k
    | call k hl =>
      simp only [List.length_append, List.length_cons] at hn
      exact call k _ _ hl (hl.imp fun us a hus ha => ha.imp fun xs w hxs hw =>
        ⟨hw, ih _ (by omega) hw rfl⟩)
    | array hl =>
      simp only [List.length_append, List.length_cons] at hn
      exact array _ _ hl (hl.imp fun us w hus hw => ⟨hw, ih _ (by omega) hw rfl⟩)

/-- The tokens that a value or an argument may start with. -/
def TokenKind.startsValue : TokenKind → Bool
  | .str _ => true
  | .number _ => true
  | .ident _ => true
  | .lbracket => true
  | _ => false

theorem IsValue.exists_head {ts : List TokenKind} {v : Value} (h : IsValue ts v) :
    ∃ t us, ts = t :: us ∧ t.startsValue = true := by
  cases h <;> exact ⟨_, _, rfl, rfl⟩

theorem IsArgument.exists_head {P : List TokenKind → Value → Prop}
    (hP : ∀ us v, P us v → ∃ t us', us = t :: us' ∧ t.startsValue = true)
    {ts : List TokenKind} {a : Argument Value} (h : IsArgument P ts a) :
    ∃ t us, ts = t :: us ∧ t.startsValue = true := by
  cases h with
  | positional hp => exact hP _ _ hp
  | named name hp => exact ⟨_, _, rfl, rfl⟩

/-! ### Attributes -/

/-- A name, or names with dots between them. -/
inductive IsDottedName : List TokenKind → String → Prop
  /-- A name. -/
  | single (name : String) : IsDottedName [.ident name] name
  /-- Another name behind a dot. -/
  | snoc {ts : List TokenKind} {front : String} (part : String) :
      IsDottedName ts front → IsDottedName (ts ++ [.dot, .ident part]) (front ++ "." ++ part)

/-- An attribute behind its mark. -/
inductive IsAttribute : List TokenKind → Attribute → Prop
  /-- Without parentheses. -/
  | bare {ts : List TokenKind} {name : String} : IsDottedName ts name → IsAttribute ts ⟨name, []⟩
  /-- With arguments in parentheses. -/
  | applied {ts us : List TokenKind} {name : String} {args : List (Argument Value)} :
      IsDottedName ts name → CommaList (IsArgument IsValue) us args →
      IsAttribute (ts ++ .lparen :: (us ++ [.rparen])) ⟨name, args⟩

/-- The attributes of a line, each behind its mark. -/
inductive AreAttributes : List TokenKind → List Attribute → Prop
  /-- No attribute. -/
  | nil : AreAttributes [] []
  /-- An attribute in front of others. -/
  | cons {us ts : List TokenKind} {a : Attribute} {as : List Attribute} :
      IsAttribute us a → AreAttributes ts as → AreAttributes (.at :: (us ++ ts)) (a :: as)

/-! ### Entries -/

/-- The type of a field. -/
inductive IsFieldType : List TokenKind → FieldType → Prop
  /-- A name. -/
  | named (name : String) : IsFieldType [.ident name] (.named name)
  /-- A type of the database. -/
  | unsupported (native : String) :
      IsFieldType [.ident unsupportedName, .lparen, .str native, .rparen] (.unsupported native)

/-- The tokens of what follows the type of a field. -/
def modifierTokens : Option Modifier → List TokenKind
  | some .optional => [.question]
  | some .list => [.lbracket, .rbracket]
  | none => []

/-- The tokens of the comment that may end a line. -/
def commentTokens : Option String → List TokenKind
  | some text => [.comment text]
  | none => []

/-- A field and its comment. -/
inductive IsField : List TokenKind → Field → Prop
  /-- A name, a type, what follows the type, attributes and a comment. -/
  | intro (name : String) {us ts : List TokenKind} {type : FieldType}
      (modifier : Option Modifier) {attributes : List Attribute} (comment : Option String) :
      IsFieldType us type → AreAttributes ts attributes →
      IsField (.ident name :: (us ++ (modifierTokens modifier ++ (ts ++ commentTokens comment))))
        ⟨name, type, modifier, attributes, comment⟩

/-- A value of an enumeration and its comment. -/
inductive IsEnumValue : List TokenKind → EnumValue → Prop
  /-- A name, attributes and a comment. -/
  | intro (name : String) {ts : List TokenKind} {attributes : List Attribute}
      (comment : Option String) : AreAttributes ts attributes →
      IsEnumValue (.ident name :: (ts ++ commentTokens comment)) ⟨name, attributes, comment⟩

/-- A setting and its comment. -/
inductive IsSetting : List TokenKind → Setting → Prop
  /-- A key, a value and a comment. -/
  | intro (key : String) {ts : List TokenKind} {value : Value} (comment : Option String) :
      IsValue ts value →
      IsSetting (.ident key :: .equals :: (ts ++ commentTokens comment)) ⟨key, value, comment⟩

/-! ### Blocks -/

/-- `EndsLine ts rest` says a line ends in front of `ts`, and `rest` is what comes after: a line
end is used up, the closing brace of the block is not. -/
inductive EndsLine : List TokenKind → List TokenKind → Prop
  /-- A line end. -/
  | newline (rest : List TokenKind) : EndsLine (.newline :: rest) rest
  /-- The closing brace shares the last line. -/
  | brace (rest : List TokenKind) : EndsLine (.rbrace :: rest) (.rbrace :: rest)

section

variable {ε α : Type}

/-- The lines of a block and its closing brace.  `Entry` spells its entries and `Attr` the
attributes of the whole block. -/
inductive IsBody (Entry : List TokenKind → ε → Prop) (Attr : List TokenKind → α → Prop) :
    List TokenKind → List (Item ε α) → Prop
  /-- The closing brace. -/
  | close : IsBody Entry Attr [.rbrace] []
  /-- A blank line. -/
  | newline {ts : List TokenKind} {items : List (Item ε α)} :
      IsBody Entry Attr ts items → IsBody Entry Attr (.newline :: ts) items
  /-- A comment. -/
  | comment (text : String) {ts : List TokenKind} {items : List (Item ε α)} :
      IsBody Entry Attr ts items →
      IsBody Entry Attr (.comment text :: ts) (.comment text :: items)
  /-- An entry and the end of its line. -/
  | entry {us ts rest : List TokenKind} {e : ε} {items : List (Item ε α)} :
      Entry us e → EndsLine ts rest → IsBody Entry Attr rest items →
      IsBody Entry Attr (us ++ ts) (.entry e :: items)
  /-- An attribute of the whole block, a comment and the end of its line. -/
  | blockAttribute {us ts rest : List TokenKind} {a : α} (comment : Option String)
      {items : List (Item ε α)} :
      Attr us a → EndsLine ts rest → IsBody Entry Attr rest items →
      IsBody Entry Attr (.atAt :: (us ++ (commentTokens comment ++ ts)))
        (attributeItems a comment ++ items)

end

/-- A declaration: its keyword, its name, and its lines in braces.  Settings have no attribute
of the whole block. -/
inductive IsBlock : List TokenKind → Block → Prop
  /-- A block of fields. -/
  | model (kind : ModelKind) (name : String) {ts : List TokenKind}
      {items : List (Item Field Attribute)} : IsBody IsField IsAttribute ts items →
      IsBlock (.ident kind.keyword :: .ident name :: .lbrace :: ts) (.model kind ⟨name, items⟩)
  /-- An enumeration. -/
  | enumeration (name : String) {ts : List TokenKind}
      {items : List (Item EnumValue Attribute)} : IsBody IsEnumValue IsAttribute ts items →
      IsBlock (.ident enumKeyword :: .ident name :: .lbrace :: ts) (.enumeration ⟨name, items⟩)
  /-- A block of settings. -/
  | settings (kind : SettingsKind) (name : String) {ts : List TokenKind}
      {items : List (Item Setting Empty)} :
      IsBody IsSetting (fun _ _ => False) ts items →
      IsBlock (.ident kind.keyword :: .ident name :: .lbrace :: ts) (.settings kind ⟨name, items⟩)

/-- A whole schema: blank lines, comments and declarations in any order. -/
inductive IsSchema : List TokenKind → List Block → Prop
  /-- Nothing. -/
  | nil : IsSchema [] []
  /-- A blank line. -/
  | newline {ts : List TokenKind} {bs : List Block} :
      IsSchema ts bs → IsSchema (.newline :: ts) bs
  /-- A comment. -/
  | comment (text : String) {ts : List TokenKind} {bs : List Block} :
      IsSchema ts bs → IsSchema (.comment text :: ts) (.comment text :: bs)
  /-- A declaration. -/
  | block {us ts : List TokenKind} {b : Block} {bs : List Block} :
      IsBlock us b → IsSchema ts bs → IsSchema (us ++ ts) (b :: bs)

end SchemaForge.Schema
