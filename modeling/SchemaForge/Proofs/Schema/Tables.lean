import SchemaForge.Schema.Tables
import Mathlib.Data.List.Forall2

/-!
# Tables are closed

What a type name means is decided in four places: the declared models, the declared
enumerations, the scalar types of the language, and the map to validation types.  The tables of a
document fit them together, whatever names clash: only two scalar types have no validation type,
and no foreign key leaves the document.

## Main definitions

* `Field.IsColumn` — the fields of a model that are columns.
* `Field.PairsAt` — a relation pairs a field of its own model with one of another model.
* `Named.GivesKey` — the last relation that pairs a field decides its foreign key.

## Main results

* `foreignKey?_eq_some_iff` — a field has the key that the last relation gives it.
* `danglingReferences_tables` — no foreign key leaves the tables of a document.
* `tables_are_closed` — **tables hold the column fields of their models, and refer to models
  only.**
-/

namespace SchemaForge.Schema

/-! ### The last of several -/

section

variable {α β : Type} {l : List (String × β)} {name : String} {b : β}

theorem lookup_eq_none_iff_forall : l.lookup name = none ↔ ∀ b, (name, b) ∉ l := by
  rw [List.lookup_eq_none_iff]
  constructor
  · intro h b hb
    simpa using h _ hb
  · rintro h ⟨name', b⟩ hb
    rw [bne_iff_ne]
    rintro rfl
    exact h b hb

theorem lookup_singleton_eq_some_iff {p : String × β} :
    [p].lookup name = some b ↔ p = (name, b) := by
  obtain ⟨name', b'⟩ := p
  rw [List.lookup_cons]
  by_cases hname : name = name'
  · subst hname
    simp
  · have hbeq : (name == name') = false := beq_eq_false_iff_ne.2 hname
    simp [hbeq, Ne.symm hname]

/-- The last pair of a name in a list is found first from its end. -/
theorem lookup_reverse_eq_some_iff : l.reverse.lookup name = some b ↔
    ∃ i : Nat, l[i]? = some (name, b) ∧ ∀ (j : Nat) b', i < j → l[j]? ≠ some (name, b') := by
  induction l with
  | nil => simp
  | cons p l ih =>
    rw [List.reverse_cons, List.lookup_append, Option.or_eq_some_iff, ih,
      lookup_singleton_eq_some_iff, lookup_eq_none_iff_forall]
    simp only [List.mem_reverse]
    constructor
    · rintro (⟨i, hi, hlast⟩ | ⟨hnone, rfl⟩)
      · refine ⟨i + 1, hi, fun j b' hj => ?_⟩
        obtain ⟨j, rfl⟩ : ∃ k, j = k + 1 := ⟨j - 1, by omega⟩
        exact hlast j b' (by omega)
      · refine ⟨0, rfl, fun j b' hj hget => ?_⟩
        obtain ⟨j, rfl⟩ : ∃ k, j = k + 1 := ⟨j - 1, by omega⟩
        exact hnone b' (List.mem_of_getElem? hget)
    · rintro ⟨i, hi, hlast⟩
      cases i with
      | zero =>
        refine .inr ⟨fun b' hb' => ?_, Option.some.inj hi⟩
        obtain ⟨j, hj⟩ := List.mem_iff_getElem?.1 hb'
        exact hlast (j + 1) b' (Nat.succ_pos j) hj
      | succ i => exact .inl ⟨i, hi, fun j b' hj => hlast (j + 1) b' (by omega)⟩

/-- Of lists behind each other, the last with a name decides. -/
theorem lookup_reverse_flatMap_eq_some_iff {as : List α} {f : α → List (String × β)} :
    (as.flatMap f).reverse.lookup name = some b ↔
      ∃ front a behind, as = front ++ a :: behind ∧ (f a).reverse.lookup name = some b ∧
        ∀ a' ∈ behind, ∀ b', (name, b') ∉ f a' := by
  induction as with
  | nil => simp
  | cons a as ih =>
    rw [List.flatMap_cons, List.reverse_append, List.lookup_append, Option.or_eq_some_iff, ih,
      lookup_eq_none_iff_forall]
    simp only [List.mem_reverse, List.mem_flatMap]
    constructor
    · rintro (⟨front, a', behind, rfl, ha', hbehind⟩ | ⟨hnone, ha⟩)
      · exact ⟨a :: front, a', behind, rfl, ha', hbehind⟩
      · exact ⟨[], a, as, rfl, ha, fun a' ha' b' hb' => hnone b' ⟨a', ha', hb'⟩⟩
    · rintro ⟨front, a', behind, heq, ha', hbehind⟩
      rcases front with _ | ⟨_, front⟩
      · cases heq
        exact .inr ⟨fun b' ⟨a', ha', hb'⟩ => hbehind a' ha' b' hb', ha'⟩
      · cases heq
        exact .inl ⟨front, a', behind, rfl, ha', hbehind⟩

end

/-! ### Columns -/

/-- Whether columns may have a type: it is named, no declared model, and a scalar type or a
declared enumeration. -/
def FieldType.IsColumnType (d : Document) : FieldType → Prop
  | named type =>
    type ∉ d.modelNames ∧ (type ∈ scalarTypes ∨ type ∈ d.enumerations.map (·.name))
  | unsupported _ => False

instance (d : Document) : DecidablePred (FieldType.IsColumnType d)
  | .named _ => inferInstanceAs (Decidable (_ ∧ _))
  | .unsupported _ => inferInstanceAs (Decidable False)

/-- Whether a field is a column: columns may have its type, and it is no relation. -/
def Field.IsColumn (d : Document) (f : Field) : Prop :=
  f.type.IsColumnType d ∧ ∀ a ∈ f.attributes, a.name ≠ relationAttribute

instance (d : Document) : DecidablePred (Field.IsColumn d) :=
  fun _ => inferInstanceAs (Decidable (_ ∧ _))

section

variable {d : Document} {m : Model} {f : Field} {c : Column} {type : String}

theorem values?_eq_none_iff :
    d.scope.values? type = none ↔ type ∉ d.enumerations.map (·.name) := by
  rw [Scope.values?, lookup_eq_none_iff_forall]
  simp only [Document.scope, List.mem_reverse, List.mem_map, Prod.mk.injEq, not_exists, not_and]
  constructor
  · intro h e he hname
    exact h e.valueNames e he hname rfl
  · intro h values e he hname _
    exact h e he hname

theorem isColumnType_eq_true_iff :
    d.scope.isColumnType type = true ↔ (FieldType.named type).IsColumnType d := by
  have hvalues : (d.scope.values? type).isSome = true ↔ type ∈ d.enumerations.map (·.name) := by
    rw [Option.isSome_iff_ne_none, ne_eq, values?_eq_none_iff, not_not]
  rw [Scope.isColumnType, FieldType.IsColumnType, Bool.and_eq_true, Bool.or_eq_true, hvalues]
  simp [Document.scope]

theorem hasAttribute_eq_false_iff {name : String} :
    f.hasAttribute name = false ↔ ∀ a ∈ f.attributes, a.name ≠ name := by
  simp [Field.hasAttribute]

theorem isSome_column? : (f.column? d.scope m).isSome = true ↔ f.IsColumn d := by
  rw [Field.column?, Field.IsColumn, ← hasAttribute_eq_false_iff]
  cases hf : f.type with
  | unsupported native => simp [FieldType.name?, FieldType.IsColumnType]
  | named type =>
    rw [← isColumnType_eq_true_iff]
    cases hrelation : f.hasAttribute relationAttribute <;>
      cases htype : d.scope.isColumnType type <;> simp [FieldType.name?, htype]

theorem FieldType.name?_eq_some_iff {t : FieldType} {name : String} :
    t.name? = some name ↔ t = .named name := by
  cases t <;> simp [FieldType.name?]

/-- A column takes its name and type from its field, and what these stand for from the document. -/
theorem column?_eq_some (h : f.column? d.scope m = some c) :
    (c.name = f.name ∧ .named c.typeName = f.type) ∧
      c.variants = d.scope.values? c.typeName ∧ c.references = m.foreignKey? d.scope c.name := by
  rw [Field.column?] at h
  split at h
  · next type hname =>
    split at h
    · cases h
    · cases h
      exact ⟨⟨rfl, (FieldType.name?_eq_some_iff.1 hname).symm⟩, rfl, rfl⟩
  · cases h

/-- The columns of a table are, in order, the fields of its model that are columns. -/
theorem columns_table :
    (m.table d.scope).columns.map (fun c => (c.name, FieldType.named c.typeName)) =
      (m.entries.filter (Field.IsColumn d)).map fun f => (f.name, f.type) := by
  rw [Named.table]
  induction m.entries with
  | nil => rfl
  | cons f fs ih =>
    dsimp only at ih ⊢
    cases hc : f.column? d.scope m with
    | some c =>
      have hf : f.IsColumn d := isSome_column?.1 (Option.isSome_of_mem hc)
      obtain ⟨⟨hname, htype⟩, -⟩ := column?_eq_some hc
      rw [List.filterMap_cons_some hc, List.filter_cons_of_pos (by simpa using hf), List.map_cons,
        List.map_cons, ih, hname, htype]
    | none =>
      have hf : ¬ f.IsColumn d := by
        rw [← isSome_column? (m := m), hc]
        exact Bool.false_ne_true
      rw [List.filterMap_cons_none hc, List.filter_cons_of_neg (by simpa using hf), ih]

/-- Two scalar types have no validation type of their own. -/
theorem scalarType_eq_unknown_iff (h : type ∈ scalarTypes) :
    scalarType type = .unknown ↔ type = "Json" ∨ type = "Decimal" := by
  simp only [scalarTypes, List.mem_cons, List.not_mem_nil, or_false] at h
  rcases h with rfl | rfl | rfl | rfl | rfl | rfl | rfl | rfl | rfl <;> decide

/-- The validation type of a column is unknown where its type is one of these, unless an
enumeration has the name. -/
theorem elementType_eq_unknown_iff (h : f.column? d.scope m = some c) :
    c.elementType .prisma = .unknown ↔
      (c.typeName = "Json" ∨ c.typeName = "Decimal") ∧
        c.typeName ∉ d.enumerations.map (·.name) := by
  have hcolumn : f.IsColumn d := isSome_column?.1 (Option.isSome_of_mem h)
  obtain ⟨⟨-, htype⟩, hvariants, -⟩ := column?_eq_some h
  obtain ⟨htype', -⟩ := hcolumn
  rw [← htype] at htype'
  rw [Column.elementType, hvariants, ← values?_eq_none_iff]
  cases hvalues : d.scope.values? c.typeName with
  | some values => simp
  | none =>
    have hscalar : c.typeName ∈ scalarTypes :=
      htype'.2.resolve_right (values?_eq_none_iff.1 hvalues)
    simpa [Dialect.elementType] using scalarType_eq_unknown_iff hscalar

end

/-! ### Foreign keys -/

/-- `f.PairsAt d i own key` says `f` has a declared model as its type, and its relation lists
`own` among its fields and the field of the key among those that it refers to, both at index
`i`. -/
def Field.PairsAt (d : Document) (f : Field) (i : Nat) (own : String) (key : ForeignKey) : Prop :=
  (f.type = .named key.table ∧ key.table ∈ d.modelNames) ∧
    ∃ relation fields references, f.attribute? relationAttribute = some relation ∧
      relation.arg? "fields" = some fields ∧ relation.arg? "references" = some references ∧
      fields.idents[i]? = some own ∧ references.idents[i]? = some key.column

/-- `m.GivesKey d own key` says a relation of the model pairs `own` with the field of the key, and
neither it nor a later one pairs `own` again. -/
def Named.GivesKey (d : Document) (m : Model) (own : String) (key : ForeignKey) : Prop :=
  ∃ front f behind, m.entries = front ++ f :: behind ∧
    (∃ i, f.PairsAt d i own key ∧ ∀ j key', i < j → ¬ f.PairsAt d j own key') ∧
    ∀ f' ∈ behind, ∀ j key', ¬ f'.PairsAt d j own key'

section

variable {d : Document} {m : Model} {f : Field} {own : String} {key : ForeignKey} {i : Nat}

theorem getElem?_foreignKeys :
    (f.foreignKeys d.scope)[i]? = some (own, key) ↔ f.PairsAt d i own key := by
  rw [Field.foreignKeys]
  constructor
  · intro h
    split at h
    · next target relation htype hrelation =>
      split at h
      · next hmodel =>
        split at h
        · next fields references hfields hreferences =>
          rw [List.getElem?_map, Option.map_eq_some_iff] at h
          obtain ⟨⟨own', other⟩, hzip, hpair⟩ := h
          cases hpair
          obtain ⟨hown, hother⟩ := List.getElem?_zip_eq_some.1 hzip
          refine ⟨⟨FieldType.name?_eq_some_iff.1 htype, ?_⟩, relation, fields, references,
            hrelation, hfields, hreferences, hown, hother⟩
          simpa [Document.scope] using hmodel
        · cases h
      · cases h
    · cases h
  · rintro ⟨⟨htype, hmodel⟩, relation, fields, references, hrelation, hfields, hreferences,
      hown, hother⟩
    have hcontains : d.scope.models.contains key.table = true := by
      simpa [Document.scope] using hmodel
    simp only [FieldType.name?_eq_some_iff.2 htype, hrelation, hcontains, if_true, hfields,
      hreferences, List.getElem?_map, Option.map_eq_some_iff]
    exact ⟨(own, key.column), List.getElem?_zip_eq_some.2 ⟨hown, hother⟩, rfl⟩

/-- **A field has the key that the last relation gives it.** -/
theorem foreignKey?_eq_some_iff :
    m.foreignKey? d.scope own = some key ↔ m.GivesKey d own key := by
  have hnone : ∀ f : Field, (∀ key', (own, key') ∉ f.foreignKeys d.scope) ↔
      ∀ j key', ¬ f.PairsAt d j own key' := by
    intro f
    simp only [List.mem_iff_getElem?, getElem?_foreignKeys, not_exists]
    exact forall_comm
  rw [Named.foreignKey?, lookup_reverse_flatMap_eq_some_iff, Named.GivesKey]
  simp only [lookup_reverse_eq_some_iff, getElem?_foreignKeys, hnone, ne_eq]

theorem Named.GivesKey.mem_modelNames (h : m.GivesKey d own key) : key.table ∈ d.modelNames := by
  obtain ⟨_, f, _, _, ⟨i, ⟨⟨_, hmem⟩, _⟩, _⟩, _⟩ := h
  exact hmem

end

theorem map_name_tables (d : Document) : d.tables.map (·.name) = d.modelNames := by
  simp [Document.tables, Document.modelNames, Named.table, Function.comp_def]

/-- No foreign key leaves the tables of a document. -/
theorem danglingReferences_tables (d : Document) : danglingReferences d.tables = [] := by
  simp only [danglingReferences, List.flatMap_eq_nil_iff, List.filterMap_eq_nil_iff]
  intro t ht c hc
  split
  · next key hkey =>
    rw [if_pos]
    obtain ⟨m, hm, rfl⟩ := List.mem_map.1 ht
    obtain ⟨f, hf, hc⟩ := List.mem_filterMap.1 hc
    obtain ⟨-, -, hreferences⟩ := column?_eq_some hc
    rw [hkey] at hreferences
    have hmem := (foreignKey?_eq_some_iff.1 hreferences.symm).mem_modelNames
    rw [← map_name_tables] at hmem
    simpa using hmem
  · rfl

/-- **Tables hold the column fields of their models, and refer to models only.**  There is a
table for each model, in order; its columns are the fields that are columns, in order.  A column
has no validation type only where its type is `Json` or `Decimal` and no enumeration has that
name, and its foreign key is the one that the last relation gives it.  So no foreign key of the
tables dangles, even where relations of the document do. -/
theorem tables_are_closed (d : Document) :
    List.Forall₂ (fun m t =>
        t.name = m.name ∧
        t.columns.map (fun c => (c.name, FieldType.named c.typeName)) =
          (m.entries.filter (Field.IsColumn d)).map (fun f => (f.name, f.type)) ∧
        ∀ c ∈ t.columns,
          (c.elementType t.dialect = .unknown ↔
            (c.typeName = "Json" ∨ c.typeName = "Decimal") ∧
              c.typeName ∉ d.enumerations.map (·.name)) ∧
          ∀ key, c.references = some key ↔ m.GivesKey d c.name key)
      d.models d.tables ∧
    danglingReferences d.tables = [] := by
  refine ⟨?_, danglingReferences_tables d⟩
  rw [Document.tables, List.forall₂_map_right_iff, List.forall₂_same]
  intro m _
  refine ⟨rfl, columns_table, fun c hc => ?_⟩
  obtain ⟨f, -, hf⟩ := List.mem_filterMap.1 hc
  refine ⟨elementType_eq_unknown_iff hf, fun key => ?_⟩
  obtain ⟨-, -, hreferences⟩ := column?_eq_some hf
  rw [hreferences, foreignKey?_eq_some_iff]

end SchemaForge.Schema
