import Mathlib
import SchemaForge.Proofs.Schema.Tables
import SchemaForge.Schema.Source

/-!
# Keys of columns

A column is part of the primary key when its field is marked so, or when the list of the model's
first `@@id` names it; it is unique when its field is marked so, or when a `@@unique` lists it
alone.  An entry of such a list may carry arguments of its own, as in `title(sort: Desc)`.

Only bare names are read.  Of a list of bare names every entry counts, and none that stands beside
another is unique by itself.  An entry with arguments is lost before the list is measured: a
compound key loses the field, and what is left of a compound `@@unique` may be a single name.

## Main definitions

* `Value.listed`, `Value.fieldName?` — the entries of a list, and the fields that they name.
* `Named.keyList?`, `Named.uniqueLists` — the lists of a model.
* `Named.KeyNames`, `Named.UniqueNames` — what the lists say of a field.
* `Field.GivesKeysTo` — a column has the keys that its field and its model give it.

## Main results

* `mem_keyFields_iff`, `mem_uniqueFields_iff` — what is read from the lists.
* `bare_key_lists_are_read_whole` — **lists of bare names are read whole.**
* `sorted_entries_are_lost` — an entry with arguments is not read.
-/

namespace SchemaForge.Schema

/-! ### Lists of fields -/

namespace Value

/-- The entries of a list; a word alone is a list of itself. -/
def listed : Value → List Value
  | array values => values
  | ident name => [ident name]
  | boolean b => [boolean b]
  | _ => []

/-- The field that an entry names: by a word, or by a name with arguments of its own. -/
def fieldName? : Value → Option String
  | ident name => some name
  | boolean b => some (if b then "true" else "false")
  | call name _ => some name
  | _ => none

/-- An entry is bare when it is a name and nothing else. -/
def IsBare (entry : Value) : Prop :=
  entry.fieldName? = entry.ident? ∧ entry.ident?.isSome = true

instance : DecidablePred IsBare :=
  fun _ => inferInstanceAs (Decidable (_ ∧ _))

/-- The bare names of a list are those of its entries that are bare. -/
theorem idents_eq (list : Value) : list.idents = list.listed.filterMap ident? := by
  cases list <;> rfl

end Value

namespace Named

/-- The list of the first `@@id` of a model. -/
def keyList? (m : Model) : Option (List Value) :=
  (m.attributeNamed? "id").bind fun a => (a.arg? "fields").map Value.listed

/-- The lists of the `@@unique`s of a model, in order. -/
def uniqueLists (m : Model) : List (List Value) :=
  (m.attributes.filter (·.name == "unique")).filterMap fun a =>
    (a.arg? "fields").map Value.listed

/-- An entry of the list of the first `@@id` names the field. -/
def KeyNames (m : Model) (field : String) : Prop :=
  ∃ entries ∈ m.keyList?, some field ∈ entries.map Value.fieldName?

/-- The list of a `@@unique` has one entry, and that entry names the field. -/
def UniqueNames (m : Model) (field : String) : Prop :=
  ∃ entries ∈ m.uniqueLists, entries.map Value.fieldName? = [some field]

instance (m : Model) (field : String) : Decidable (m.KeyNames field) :=
  inferInstanceAs (Decidable (∃ entries ∈ m.keyList?, some field ∈ entries.map Value.fieldName?))

instance (m : Model) (field : String) : Decidable (m.UniqueNames field) :=
  inferInstanceAs (Decidable (∃ entries ∈ m.uniqueLists,
    entries.map Value.fieldName? = [some field]))

end Named

/-! ### What is read from the lists -/

section

variable {m : Model} {field : String} {entries : List Value}

/-- Of the first `@@id` the bare entries are read. -/
theorem mem_keyFields_iff :
    field ∈ m.keyFields ↔ ∃ entries ∈ m.keyList?, field ∈ entries.filterMap Value.ident? := by
  rw [Named.keyFields, Named.keyList?]
  cases m.attributeNamed? "id" with
  | none => simp
  | some a =>
    cases hlist : a.arg? "fields" with
    | none => simp [hlist]
    | some list => simp [hlist, Value.idents_eq]

/-- Of a `@@unique` a field is read when it is the only bare entry. -/
theorem mem_uniqueFields_iff :
    field ∈ m.uniqueFields ↔
      ∃ entries ∈ m.uniqueLists, entries.filterMap Value.ident? = [field] := by
  rw [Named.uniqueFields, List.mem_flatMap]
  simp only [Named.uniqueLists, List.mem_filterMap, Option.map_eq_some_iff]
  constructor
  · rintro ⟨a, ha, hfield⟩
    split at hfield
    · next name hname =>
      obtain rfl := List.mem_singleton.1 hfield
      obtain ⟨list, hlist, hidents⟩ := Option.map_eq_some_iff.1 hname
      rw [Value.idents_eq] at hidents
      exact ⟨list.listed, ⟨a, ha, list, hlist, rfl⟩, hidents⟩
    · cases hfield
  · rintro ⟨_, ⟨a, ha, list, hlist, rfl⟩, hfield⟩
    rw [← Value.idents_eq] at hfield
    exact ⟨a, ha, by simp [hlist, hfield]⟩

/-- Among bare entries, all that name a field are read. -/
theorem map_fieldName?_of_isBare (h : ∀ e ∈ entries, e.IsBare) :
    entries.map Value.fieldName? = (entries.filterMap Value.ident?).map some := by
  induction entries with
  | nil => rfl
  | cons e entries ih =>
    obtain ⟨⟨hname, hbare⟩, hentries⟩ := List.forall_mem_cons.1 h
    obtain ⟨name, hident⟩ := Option.isSome_iff_exists.1 hbare
    rw [List.map_cons, List.filterMap_cons_some hident, List.map_cons, hname, hident,
      ih hentries]

theorem some_mem_map_fieldName?_iff (h : ∀ e ∈ entries, e.IsBare) :
    some field ∈ entries.map Value.fieldName? ↔ field ∈ entries.filterMap Value.ident? := by
  rw [map_fieldName?_of_isBare h]
  simp

theorem map_fieldName?_eq_singleton_iff (h : ∀ e ∈ entries, e.IsBare) :
    entries.map Value.fieldName? = [some field] ↔
      entries.filterMap Value.ident? = [field] := by
  rw [map_fieldName?_of_isBare h]
  simp [List.map_eq_singleton_iff]

end

/-! ### Columns -/

/-- `f.GivesKeysTo m c` says the column has the keys that its field and the lists of its model
give it, whatever the form of their entries. -/
structure Field.GivesKeysTo (m : Model) (f : Field) (c : Column) : Prop where
  /-- It is part of the primary key when its field is marked, or named by the first `@@id`. -/
  primaryKey : c.isPrimaryKey = true ↔ f.hasAttribute "id" = true ∨ m.KeyNames f.name
  /-- It is unique when its field is marked, or named alone by a `@@unique`. -/
  unique : c.isUnique = true ↔ f.hasAttribute "unique" = true ∨ m.UniqueNames f.name

/-- All entries in the lists of a model are bare. -/
structure Named.HasBareLists (m : Model) : Prop where
  /-- Those of the first `@@id`. -/
  keyList : ∀ entries ∈ m.keyList?, ∀ e ∈ entries, e.IsBare
  /-- Those of the `@@unique`s. -/
  uniqueLists : ∀ entries ∈ m.uniqueLists, ∀ e ∈ entries, e.IsBare

section

variable {d : Document} {m : Model} {f : Field} {c : Column}

/-- The keys of a column are those that its field and the bare entries of the lists give it. -/
theorem isPrimaryKey_iff (h : f.column? d.scope m = some c) :
    c.isPrimaryKey = true ↔ f.hasAttribute "id" = true ∨
      ∃ entries ∈ m.keyList?, f.name ∈ entries.filterMap Value.ident? := by
  rw [Field.column?] at h
  split at h
  · split at h
    · cases h
    · cases h
      rw [Bool.or_eq_true, List.contains_iff_mem, mem_keyFields_iff]
  · cases h

theorem isUnique_iff (h : f.column? d.scope m = some c) :
    c.isUnique = true ↔ f.hasAttribute "unique" = true ∨
      ∃ entries ∈ m.uniqueLists, entries.filterMap Value.ident? = [f.name] := by
  rw [Field.column?] at h
  split at h
  · split at h
    · cases h
    · cases h
      rw [Bool.or_eq_true, List.contains_iff_mem, mem_uniqueFields_iff]
  · cases h

/-- **Where the lists of a model are bare, a column has the keys that they give it.** -/
theorem givesKeysTo_of_hasBareLists (h : f.column? d.scope m = some c) (hm : m.HasBareLists) :
    f.GivesKeysTo m c where
  primaryKey := by
    rw [isPrimaryKey_iff h, Named.KeyNames]
    refine or_congr_right (exists_congr fun entries => and_congr_right fun hentries => ?_)
    exact (some_mem_map_fieldName?_iff (hm.keyList entries hentries)).symm
  unique := by
    rw [isUnique_iff h, Named.UniqueNames]
    refine or_congr_right (exists_congr fun entries => and_congr_right fun hentries => ?_)
    exact (map_fieldName?_eq_singleton_iff (hm.uniqueLists entries hentries)).symm

/-- The columns of a table, each with the field that it comes from. -/
theorem forall₂_columns_table (d : Document) (m : Model) :
    List.Forall₂ (fun f c => f.column? d.scope m = some c)
      (m.entries.filter (Field.IsColumn d)) (m.table d.scope).columns := by
  rw [Named.table]
  induction m.entries with
  | nil => exact .nil
  | cons f fs ih =>
    cases hc : f.column? d.scope m with
    | some c =>
      have hf : f.IsColumn d := isSome_column?.1 (Option.isSome_of_mem hc)
      rw [List.filterMap_cons_some hc, List.filter_cons_of_pos (by simpa using hf)]
      exact .cons hc ih
    | none =>
      have hf : ¬ f.IsColumn d := by
        rw [← isSome_column? (m := m), hc]
        exact Bool.false_ne_true
      rw [List.filterMap_cons_none hc, List.filter_cons_of_neg (by simpa using hf)]
      exact ih

end

/-- **Key lists of bare names are read whole.**  The columns of a table come from the column
fields of its model, in order.  Where all entries in the lists of the model are bare, each column
has the keys that they give it.  Whatever the entries, a column is part of the primary key when
its field is marked or the first `@@id` lists its name bare, and unique when its field is marked
or a `@@unique` has its name as the only bare entry. -/
theorem bare_key_lists_are_read_whole (d : Document) :
    List.Forall₂ (fun m t =>
        List.Forall₂ (fun f c =>
            c.name = f.name ∧
            (m.HasBareLists → f.GivesKeysTo m c) ∧
            (c.isPrimaryKey = true ↔ f.hasAttribute "id" = true ∨
              ∃ entries ∈ m.keyList?, f.name ∈ entries.filterMap Value.ident?) ∧
            (c.isUnique = true ↔ f.hasAttribute "unique" = true ∨
              ∃ entries ∈ m.uniqueLists, entries.filterMap Value.ident? = [f.name]))
          (m.entries.filter (Field.IsColumn d)) t.columns)
      d.models d.tables := by
  rw [Document.tables, List.forall₂_map_right_iff, List.forall₂_same]
  intro m _
  refine (forall₂_columns_table d m).imp fun f c h => ?_
  obtain ⟨⟨hname, -⟩, -⟩ := column?_eq_some h
  exact ⟨hname, givesKeysTo_of_hasBareLists h, isPrimaryKey_iff h, isUnique_iff h⟩

/-- A model with a compound key, a unique pair and a field that is unique by itself. -/
def membership : Model :=
  ⟨"Membership", [.entry ⟨"userId", .named "String", none, [], none⟩,
    .entry ⟨"teamId", .named "String", none, [], none⟩,
    .entry ⟨"slug", .named "String", none, [], none⟩,
    .blockAttribute ⟨"id", [⟨none, .array [.ident "userId", .ident "teamId"]⟩]⟩,
    .blockAttribute ⟨"unique", [⟨some "fields", .array [.ident "teamId", .ident "slug"]⟩]⟩,
    .blockAttribute ⟨"unique", [⟨none, .ident "slug"⟩]⟩]⟩

theorem bare_key_lists_are_read_whole_sample :
    membership.HasBareLists ∧
      List.Forall₂ (fun f c => f.GivesKeysTo membership c) membership.entries
        (membership.table (Document.mk [.model .model membership]).scope).columns := by
  have hbare : membership.HasBareLists := ⟨by decide +kernel, by decide +kernel⟩
  have hall := bare_key_lists_are_read_whole ⟨[.model .model membership]⟩
  cases hall with
  | cons hcolumns _ => exact ⟨hbare, hcolumns.imp fun f c h => h.2.1 hbare⟩

/-- A model whose compound key and unique pair each have an entry with arguments. -/
def sortedSource : String :=
  "model Post \x7b
  title String
  slug String
  @@id([title(sort: Desc), slug])
  @@unique([title(sort: Desc), slug])
\x7d
"

/-- That model. -/
def sortedModel : Model :=
  let pair : Value := .array [.call "title" [⟨some "sort", .ident "Desc"⟩], .ident "slug"]
  ⟨"Post", [.entry ⟨"title", .named "String", none, [], none⟩,
    .entry ⟨"slug", .named "String", none, [], none⟩,
    .blockAttribute ⟨"id", [⟨none, pair⟩]⟩, .blockAttribute ⟨"unique", [⟨none, pair⟩]⟩]⟩

/-- **An entry with arguments is not read**: the compound key loses its field, and the field that
is listed beside it becomes unique by itself. -/
theorem sorted_entries_are_lost :
    let d : Document := ⟨[.model .model sortedModel]⟩
    Document.ofCheckedSource sortedSource = .ok d ∧
      (d.tables.flatMap (·.columns)).map (fun c => (c.name, c.isPrimaryKey, c.isUnique)) =
        [("title", false, false), ("slug", true, true)] ∧
      sortedModel.KeyNames "title" ∧ ¬ sortedModel.UniqueNames "slug" := by
  refine ⟨by cbv, by decide +kernel, by decide +kernel, by decide +kernel⟩

end SchemaForge.Schema
