import SchemaForge.Schema.Document

/-!
# The shape of a document

Names are declared once: models, enumerations, composite types and views share one space of names,
datasources and generators have one each, and so have the members of every block.

## Main definitions

* `ShapeFault` — a name that is declared twice.
* `Document.shapeFault?` — the first such fault of a document.
-/

namespace SchemaForge.Schema

/-- The spaces of names at the top level. -/
inductive NameSpace where
  /-- Models, enumerations, composite types and views. -/
  | type
  /-- Datasources. -/
  | datasource
  /-- Generators. -/
  | generator
  deriving DecidableEq, Repr, Inhabited

/-- A space of names as messages call it. -/
def NameSpace.describe : NameSpace → String
  | type => "model or enum"
  | datasource => "datasource"
  | generator => "generator"

/-- A name that is declared twice. -/
inductive ShapeFault where
  /-- Two blocks of one space. -/
  | block (space : NameSpace) (name : String)
  /-- Two fields of a model. -/
  | field (name model : String)
  /-- Two values of an enumeration. -/
  | value (name enumeration : String)
  deriving DecidableEq, Repr, Inhabited

/-- The report of a fault. -/
def ShapeFault.message : ShapeFault → String
  | block space name => "Duplicate " ++ space.describe ++ " name '" ++ name ++ "'"
  | field name model => "Duplicate field '" ++ name ++ "' in model '" ++ model ++ "'"
  | value name enumeration =>
    "Duplicate value '" ++ name ++ "' in enum '" ++ enumeration ++ "'"

/-- The first name of a list that repeats an earlier one or one of `seen`. -/
def firstRepeat? {α : Type} [DecidableEq α] (seen : List α) : List α → Option α
  | [] => none
  | a :: rest => if a ∈ seen then some a else firstRepeat? (a :: seen) rest

/-- The space that a block declares its name in, and that name. -/
def Block.declares? : Block → Option (NameSpace × String)
  | model _ m => some (.type, m.name)
  | enumeration e => some (.type, e.name)
  | settings .datasource s => some (.datasource, s.name)
  | settings .generator s => some (.generator, s.name)
  | comment _ => none

/-- The first member of a block that repeats an earlier one. -/
def Block.memberFault? : Block → Option ShapeFault
  | model _ m => (firstRepeat? [] (m.entries.map (·.name))).map (.field · m.name)
  | enumeration e => (firstRepeat? [] e.valueNames).map (.value · e.name)
  | settings _ _ => none
  | comment _ => none

/-- The first fault of a list of blocks after blocks that declared `seen`: a block's own name
comes before its members. -/
def shapeFaultFrom? (seen : List (NameSpace × String)) : List Block → Option ShapeFault
  | [] => none
  | b :: rest =>
    match b.declares? with
    | none => (b.memberFault?).or (shapeFaultFrom? seen rest)
    | some (space, name) =>
      if (space, name) ∈ seen then some (.block space name)
      else (b.memberFault?).or (shapeFaultFrom? ((space, name) :: seen) rest)

/-- The first fault of a document. -/
def Document.shapeFault? (d : Document) : Option ShapeFault :=
  shapeFaultFrom? [] d.blocks

end SchemaForge.Schema
