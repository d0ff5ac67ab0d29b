import SchemaForge.Schema.Document
import SchemaForge.Table

/-!
# Looking things up in a document

## Main definitions

* `Document.models`, `Document.enumerations`, `Document.generators` — blocks of one kind.
* `Document.datasource` — the datasource, of which there may be one.
* `Document.model` — the model of a name.
* `Document.danglingRelations` — relations to models that are not declared.
* `Document.visit` — a walk over the blocks that a failure ends.
-/

namespace SchemaForge.Schema

/-- Why a document cannot answer. -/
inductive LookupError where
  /-- Relations name undeclared models. -/
  | dangling (references : List DanglingReference)
  /-- No model has the name. -/
  | noModel (name : String)
  /-- There is more than one datasource. -/
  | manyDatasources (count : Nat)
  deriving DecidableEq, Repr, Inhabited

/-- The report of dangling references, one a line. -/
def danglingMessage (references : List DanglingReference) : String :=
  "Relation validation failed:\n" ++ "\n".intercalate (references.map (·.message))

/-- The report of an error. -/
def LookupError.message : LookupError → String
  | dangling references => danglingMessage references
  | noModel name => "Model not found: " ++ name
  | manyDatasources count =>
    "Expected at most one datasource block, found " ++ toString count

/-- The model that a block is, if it is one; composite types and views are not. -/
def Block.model? : Block → Option Model
  | model .model m => some m
  | _ => none

/-- The enumeration that a block is, if it is one. -/
def Block.enumeration? : Block → Option Enumeration
  | enumeration e => some e
  | _ => none

/-- The settings of a kind that a block is, if it is such. -/
def Block.settings? (kind : SettingsKind) : Block → Option SettingsBlock
  | settings k s => if k = kind then some s else none
  | _ => none

namespace Document

/-- The models, in order. -/
def models (d : Document) : List Model :=
  d.blocks.filterMap Block.model?

/-- The enumerations, in order. -/
def enumerations (d : Document) : List Enumeration :=
  d.blocks.filterMap Block.enumeration?

/-- The datasources, in order. -/
def datasources (d : Document) : List SettingsBlock :=
  d.blocks.filterMap (Block.settings? .datasource)

/-- The generators, in order. -/
def generators (d : Document) : List SettingsBlock :=
  d.blocks.filterMap (Block.settings? .generator)

/-- The datasource, if there is one; more than one is an error. -/
def datasource (d : Document) : Except LookupError (Option SettingsBlock) :=
  match d.datasources with
  | [] => .ok none
  | [s] => .ok (some s)
  | many => .error (.manyDatasources many.length)

/-- The model of a name. -/
def model (d : Document) (name : String) : Except LookupError Model :=
  match d.models.find? (·.name == name) with
  | some m => .ok m
  | none => .error (.noModel name)

/-- The names of the models, in order. -/
def modelNames (d : Document) : List String :=
  d.models.map (·.name)

/-- Visit the blocks in order until a visit fails. -/
def visit {ε σ : Type} (d : Document) (f : σ → Block → Except ε σ) (s : σ) : Except ε σ :=
  d.blocks.foldlM f s

end Document

/-- The attribute that makes a field a relation. -/
def relationAttribute : String := "relation"

/-- The dangling reference that a field of a model is, given the declared models: it is marked as
a relation and its type is none of them. -/
def Field.dangling? (declared : List String) (model : String) (f : Field) :
    Option DanglingReference :=
  match f.type.name? with
  | some target =>
    if f.hasAttribute relationAttribute && !declared.contains target then
      some ⟨model, f.name, target⟩
    else none
  | none => none

/-- The relations of a document's models to models it does not declare, in order. -/
def Document.danglingRelations (d : Document) : List DanglingReference :=
  d.models.flatMap fun m => m.entries.filterMap (Field.dangling? d.modelNames m.name)

/-- Refuse dangling relations. -/
def Document.validateRelations (d : Document) : Except LookupError Unit :=
  match d.danglingRelations with
  | [] => .ok ()
  | references => .error (.dangling references)

end SchemaForge.Schema
