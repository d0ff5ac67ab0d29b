/-!
# Schema documents

What a schema says, in the order it says it: blocks with their items, and comments wherever they
stand.

## Main definitions

* `Value`, `Argument`, `Attribute` — what attributes and settings are given.
* `Item` — a line of a block: an entry, an attribute of the whole block, or a comment.
* `Model`, `Enumeration`, `SettingsBlock` — the three shapes of block.
* `Block`, `Document` — a top-level declaration, and a whole schema.
-/

namespace SchemaForge.Schema

/-- An argument, with a name when it is given by name. -/
@[ext]
structure Argument (ν : Type) where
  /-- The name in front of the colon. -/
  name : Option String
  /-- What is given. -/
  value : ν
  deriving DecidableEq, Inhabited

/-- A value of an argument or a setting. -/
inductive Value where
  /-- A quoted text. -/
  | string (text : String)
  /-- A number, as written. -/
  | number (digits : String)
  /-- `true` or `false`. -/
  | boolean (b : Bool)
  /-- A bare name. -/
  | ident (name : String)
  /-- A list in square brackets. -/
  | array (values : List Value)
  /-- A name with arguments. -/
  | call (name : String) (args : List (Argument Value))
  deriving Inhabited

namespace Value

/-! ### Equality

Values nest in lists of values and of arguments, so their equality is decided by a test of its
own, which `beq_iff_eq` shows to be equality. -/

mutual

/-- Whether two values are equal. -/
protected def beq : Value → Value → Bool
  | string s, string t => s == t
  | number s, number t => s == t
  | boolean b, boolean c => b == c
  | ident s, ident t => s == t
  | array vs, array ws => Value.beqAll vs ws
  | call f as, call g bs => f == g && Value.beqArgs as bs
  | _, _ => false

/-- Whether two lists of values are equal. -/
protected def beqAll : List Value → List Value → Bool
  | [], [] => true
  | v :: vs, w :: ws => Value.beq v w && Value.beqAll vs ws
  | _, _ => false

/-- Whether two lists of arguments are equal. -/
protected def beqArgs : List (Argument Value) → List (Argument Value) → Bool
  | [], [] => true
  | ⟨m, v⟩ :: as, ⟨n, w⟩ :: bs => m == n && Value.beq v w && Value.beqArgs as bs
  | _, _ => false

end

mutual

protected theorem beq_iff_eq : ∀ v w : Value, Value.beq v w = true ↔ v = w
  | string s, w => by cases w <;> simp [Value.beq]
  | number s, w => by cases w <;> simp [Value.beq]
  | boolean b, w => by cases w <;> simp [Value.beq]
  | ident s, w => by cases w <;> simp [Value.beq]
  | array vs, w => by cases w <;> simp [Value.beq, Value.beqAll_iff_eq vs]
  | call f as, w => by cases w <;> simp [Value.beq, Value.beqArgs_iff_eq as]

protected theorem beqAll_iff_eq : ∀ vs ws : List Value, Value.beqAll vs ws = true ↔ vs = ws
  | [], ws => by cases ws <;> simp [Value.beqAll]
  | v :: vs, ws => by
    cases ws <;> simp [Value.beqAll, Value.beq_iff_eq v, Value.beqAll_iff_eq vs]

protected theorem beqArgs_iff_eq :
    ∀ as bs : List (Argument Value), Value.beqArgs as bs = true ↔ as = bs
  | [], bs => by cases bs <;> simp [Value.beqArgs]
  | ⟨m, v⟩ :: as, bs => by
    cases bs <;>
      simp [Value.beqArgs, Value.beq_iff_eq v, Value.beqArgs_iff_eq as, Argument.ext_iff,
        and_assoc]

end

instance : DecidableEq Value := fun v w =>
  decidable_of_iff (Value.beq v w = true) (Value.beq_iff_eq v w)

/-- The value that a name stands for when no arguments follow it. -/
def ofName : String → Value
  | "true" => boolean true
  | "false" => boolean false
  | name => ident name

/-- The bare name that a value is, if it is one. -/
def ident? : Value → Option String
  | ident name => some name
  | _ => none

/-- The bare names in a list; a bare name counts as a list of itself. -/
def idents : Value → List String
  | array values => values.filterMap ident?
  | ident name => [name]
  | _ => []

/-- The quoted text that a value is, if it is one. -/
def text? : Value → Option String
  | string text => some text
  | _ => none

end Value

/-- An attribute of a field, an enumeration value or a block. -/
structure Attribute where
  /-- Its name without the mark in front, dots included. -/
  name : String
  /-- Its arguments; none when written without parentheses. -/
  args : List (Argument Value)
  deriving DecidableEq, Inhabited

/-- The argument of a name, else the first that is given without a name. -/
def Attribute.arg? (a : Attribute) (name : String) : Option Value :=
  ((a.args.find? fun arg => arg.name == some name).or
    (a.args.find? fun arg => arg.name.isNone)).map (·.value)

/-- The type that a field is declared with. -/
inductive FieldType where
  /-- A scalar, an enumeration or a model. -/
  | named (name : String)
  /-- A type of the database that has no name in the schema language. -/
  | unsupported (native : String)
  deriving DecidableEq, Repr, Inhabited

/-- The name of a type, for lookups. -/
def FieldType.name? : FieldType → Option String
  | named name => some name
  | unsupported _ => none

/-- What follows the type of a field. -/
inductive Modifier where
  /-- `?` -/
  | optional
  /-- `[]` -/
  | list
  deriving DecidableEq, Repr, Inhabited

/-- A field of a model. -/
structure Field where
  /-- The name. -/
  name : String
  /-- The declared type. -/
  type : FieldType
  /-- What follows the type. -/
  modifier : Option Modifier
  /-- Its attributes, in order. -/
  attributes : List Attribute
  /-- The comment at the end of its line. -/
  comment : Option String
  deriving DecidableEq, Inhabited

namespace Field

/-- The first attribute of a name. -/
def attribute? (f : Field) (name : String) : Option Attribute :=
  f.attributes.find? (·.name == name)

/-- Whether the field has an attribute of a name. -/
def hasAttribute (f : Field) (name : String) : Bool :=
  f.attributes.any (·.name == name)

/-- Whether the field may be missing. -/
def isOptional (f : Field) : Bool :=
  f.modifier == some .optional

/-- Whether the field holds lists. -/
def isList (f : Field) : Bool :=
  f.modifier == some .list

end Field

/-- A value of an enumeration. -/
structure EnumValue where
  /-- The value. -/
  name : String
  /-- Its attributes, in order. -/
  attributes : List Attribute
  /-- The comment at the end of its line. -/
  comment : Option String
  deriving DecidableEq, Inhabited

/-- A setting of a datasource or generator. -/
structure Setting where
  /-- What is set. -/
  key : String
  /-- What it is set to. -/
  value : Value
  /-- The comment at the end of its line. -/
  comment : Option String
  deriving DecidableEq, Inhabited

/-- A line of a block whose entries are `ε` and whose block attributes are `α`. -/
inductive Item (ε α : Type) where
  /-- An entry of the block. -/
  | entry (e : ε)
  /-- An attribute of the whole block. -/
  | blockAttribute (a : α)
  /-- A comment on a line of its own, or after a block attribute. -/
  | comment (text : String)
  deriving DecidableEq, Inhabited

namespace Item

variable {ε α : Type}

/-- The entry that a line is, if it is one. -/
def toEntry : Item ε α → Option ε
  | entry e => some e
  | _ => none

/-- The block attribute that a line is, if it is one. -/
def toAttribute : Item ε α → Option α
  | blockAttribute a => some a
  | _ => none

end Item

/-- A named block of items. -/
structure Named (ε α : Type) where
  /-- The name of the block. -/
  name : String
  /-- Its lines, in order. -/
  items : List (Item ε α)
  deriving DecidableEq, Inhabited

namespace Named

variable {ε α : Type}

/-- The entries of a block, in order. -/
def entries (b : Named ε α) : List ε :=
  b.items.filterMap Item.toEntry

/-- The attributes of a whole block, in order. -/
def attributes (b : Named ε α) : List α :=
  b.items.filterMap Item.toAttribute

end Named

/-- A block of fields. -/
abbrev Model := Named Field Attribute

/-- A block of enumeration values. -/
abbrev Enumeration := Named EnumValue Attribute

/-- A block of settings, which has no attributes of its own. -/
abbrev SettingsBlock := Named Setting Empty

/-- The first attribute of a name on a whole model. -/
def Named.attributeNamed? (m : Model) (name : String) : Option Attribute :=
  m.attributes.find? (·.name == name)

/-- The values of an enumeration, in order. -/
def Named.valueNames (e : Enumeration) : List String :=
  e.entries.map (·.name)

/-- What a block of settings sets a key to: the first setting counts. -/
def Named.setting? (b : SettingsBlock) (key : String) : Option Value :=
  (b.entries.find? (·.key == key)).map (·.value)

/-- The blocks of fields.  Only models become tables. -/
inductive ModelKind where
  /-- A table of the database. -/
  | model
  /-- A type of values with parts. -/
  | composite
  /-- A view of the database. -/
  | view
  deriving DecidableEq, Repr, Inhabited

/-- The keyword of a block of fields. -/
def ModelKind.keyword : ModelKind → String
  | model => "model"
  | composite => "type"
  | view => "view"

/-- The blocks of settings. -/
inductive SettingsKind where
  /-- Where the data is. -/
  | datasource
  /-- What is generated from the schema. -/
  | generator
  deriving DecidableEq, Repr, Inhabited

/-- The keyword of a block of settings. -/
def SettingsKind.keyword : SettingsKind → String
  | datasource => "datasource"
  | generator => "generator"

/-- The keyword of an enumeration. -/
def enumKeyword : String := "enum"

/-- A top-level declaration, or a comment between declarations. -/
inductive Block where
  /-- A block of fields. -/
  | model (kind : ModelKind) (m : Model)
  /-- An enumeration. -/
  | enumeration (e : Enumeration)
  /-- A block of settings. -/
  | settings (kind : SettingsKind) (s : SettingsBlock)
  /-- A comment on a line of its own. -/
  | comment (text : String)
  deriving DecidableEq, Inhabited

/-- The name a block declares. -/
def Block.name? : Block → Option String
  | model _ m => some m.name
  | enumeration e => some e.name
  | settings _ s => some s.name
  | comment _ => none

/-- A whole schema. -/
structure Document where
  /-- Its declarations and comments, in order. -/
  blocks : List Block
  deriving DecidableEq, Inhabited

end SchemaForge.Schema
