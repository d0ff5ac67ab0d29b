import SchemaForge.Proofs.Schema.RoundTrip
import SchemaForge.Proofs.Schema.Tables

/-!
# The order of declarations

A schema declares each name once, so what a name stands for does not depend on where in the
schema it is declared.  Tables and relations are judged against all declarations at once: moving
the declarations about moves the tables and the violations, and changes none of them, and one more
model changes only what is said of its own name.

## Main definitions

* `Scope.Agree` — two scopes in which all names stand for the same.
* `Document.violations` — what the check of the relations reports.
* `Field.IsStray` — the fields that violate it.

## Main results

* `shapeFaultFrom?_eq_none_iff` — declarations without a fault have different names.
* `agree_scope` — in whatever order, names stand for the same.
* `tables_perm`, `validateRelations_perm` — so models have the same tables and violations.
* `danglingRelations_insert` — one more model among them.
* `declaration_order_is_free` — **tables and violations move with the declarations.**
-/

namespace SchemaForge.Schema

/-! ### Names declared once -/

section

variable {α β : Type}

/-- Where two selections agree as far as the first goes, it gives part of what the second gives. -/
theorem filterMap_sublist_filterMap {f g : α → Option β} (h : ∀ a, f a = none ∨ f a = g a)
    (l : List α) : (l.filterMap f).Sublist (l.filterMap g) := by
  induction l with
  | nil => exact .slnil
  | cons a l ih =>
    rcases h a with ha | ha
    · rw [List.filterMap_cons_none ha]
      cases hg : g a with
      | none => rwa [List.filterMap_cons_none hg]
      | some b =>
        rw [List.filterMap_cons_some hg]
        exact ih.cons b
    · cases hg : g a with
      | none => rwa [List.filterMap_cons_none (ha.trans hg), List.filterMap_cons_none hg]
      | some b =>
        rw [List.filterMap_cons_some (ha.trans hg), List.filterMap_cons_some hg]
        exact ih.cons_cons b

theorem lookup_eq_some_iff_mem {l : List (String × β)} (h : (l.map Prod.fst).Nodup)
    {name : String} {b : β} : l.lookup name = some b ↔ (name, b) ∈ l := by
  induction l with
  | nil => simp
  | cons p l ih =>
    obtain ⟨name', b'⟩ := p
    rw [List.map_cons, List.nodup_cons] at h
    by_cases hname : name = name'
    · subst hname
      have hnone : (name, b) ∉ l := fun hmem => h.1 (List.mem_map.2 ⟨_, hmem, rfl⟩)
      simp [hnone, eq_comm]
    · have hbeq : (name == name') = false := beq_eq_false_iff_ne.2 hname
      rw [List.lookup_cons, hbeq]
      simp [ih h.2, hname]

/-- Pairs with different names are found in whatever order they stand. -/
theorem lookup_perm {l l' : List (String × β)} (hperm : l.Perm l')
    (h : (l.map Prod.fst).Nodup) (name : String) : l.lookup name = l'.lookup name := by
  have h' : (l'.map Prod.fst).Nodup := (hperm.map Prod.fst).nodup_iff.1 h
  ext b
  rw [lookup_eq_some_iff_mem h, lookup_eq_some_iff_mem h', hperm.mem_iff]

end

/-- **Declarations without a fault have different names**, which none of those before them has,
and no member of them repeats another. -/
theorem shapeFaultFrom?_eq_none_iff {seen : List (NameSpace × String)} {bs : List Block} :
    shapeFaultFrom? seen bs = none ↔
      ((bs.filterMap Block.declares?).Nodup ∧
        ∀ p ∈ seen, p ∉ bs.filterMap Block.declares?) ∧
      ∀ b ∈ bs, b.memberFault? = none := by
  induction bs generalizing seen with
  | nil => simp [shapeFaultFrom?]
  | cons b bs ih =>
    rw [shapeFaultFrom?, List.forall_mem_cons]
    cases hdeclares : b.declares? with
    | none =>
      rw [List.filterMap_cons_none hdeclares]
      simp only [Option.or_eq_none_iff, ih]
      tauto
    | some p =>
      obtain ⟨space, name⟩ := p
      rw [List.filterMap_cons_some hdeclares]
      by_cases hseen : (space, name) ∈ seen
      · simp only [if_pos hseen]
        constructor
        · intro h
          cases h
        · rintro ⟨⟨-, h⟩, -⟩
          exact absurd List.mem_cons_self (h _ hseen)
      · simp only [if_neg hseen, Option.or_eq_none_iff, ih, List.nodup_cons, List.mem_cons,
          not_or]
        constructor
        · rintro ⟨hmember, ⟨hnodup, hothers⟩, hmembers⟩
          refine ⟨⟨⟨hothers _ (.inl rfl), hnodup⟩, fun p hp => ⟨?_, hothers p (.inr hp)⟩⟩,
            hmember, hmembers⟩
          rintro rfl
          exact hseen hp
        · rintro ⟨⟨⟨hnew, hnodup⟩, hothers⟩, hmember, hmembers⟩
          refine ⟨hmember, ⟨hnodup, ?_⟩, hmembers⟩
          rintro p (rfl | hp)
          · exact hnew
          · exact (hothers p hp).2

/-! ### Scopes -/

/-- In both scopes all names stand for the same: the same are models, and enumerations have the
same values. -/
structure Scope.Agree (s s' : Scope) : Prop where
  /-- The same names are models. -/
  contains : ∀ name, s.models.contains name = s'.models.contains name
  /-- The same names are enumerations, with the same values. -/
  values : ∀ name, s.values? name = s'.values? name

section

variable {s s' : Scope} {d d' : Document}

theorem Scope.Agree.foreignKeys_eq (h : s.Agree s') :
    Field.foreignKeys s = Field.foreignKeys s' := by
  funext f
  unfold Field.foreignKeys
  simp only [h.contains]

theorem Scope.Agree.column?_eq (h : s.Agree s') (m : Model) :
    Field.column? s m = Field.column? s' m := by
  funext f
  unfold Field.column? Scope.isColumnType Named.foreignKey?
  simp only [h.contains, h.values, h.foreignKeys_eq]

/-- **A table is made of what names stand for**, and of its model. -/
theorem Scope.Agree.table_eq (h : s.Agree s') (m : Model) : m.table s = m.table s' := by
  unfold Named.table
  rw [h.column?_eq]

/-- A fault-free document has enumerations of different names. -/
theorem nodup_name_enumerations (h : d.shapeFault? = none) :
    (d.enumerations.map (·.name)).Nodup := by
  have hnames := (shapeFaultFrom?_eq_none_iff.1 h).1.1
  have hsublist : (d.enumerations.map fun e => (NameSpace.type, e.name)).Sublist
      (d.blocks.filterMap Block.declares?) := by
    rw [Document.enumerations, List.map_filterMap]
    apply filterMap_sublist_filterMap
    intro b
    cases b with
    | enumeration e => exact .inr rfl
    | model kind m => exact .inl rfl
    | settings kind s => exact .inl rfl
    | comment text => exact .inl rfl
  have hpairs : ((d.enumerations.map (·.name)).map fun name => (NameSpace.type, name)).Nodup := by
    rw [List.map_map]
    exact hnames.sublist hsublist
  exact hpairs.of_map _

theorem modelNames_perm (hperm : d'.blocks.Perm d.blocks) : d'.modelNames.Perm d.modelNames :=
  (hperm.filterMap Block.model?).map _

theorem contains_modelNames_perm (hperm : d'.blocks.Perm d.blocks) (name : String) :
    d'.modelNames.contains name = d.modelNames.contains name := by
  rw [Bool.eq_iff_iff, List.contains_iff_mem, List.contains_iff_mem]
  exact (modelNames_perm hperm).mem_iff

/-- **In whatever order they are declared, names stand for the same.** -/
theorem agree_scope (h : d.shapeFault? = none) (hperm : d'.blocks.Perm d.blocks) :
    d'.scope.Agree d.scope where
  contains := contains_modelNames_perm hperm
  values := by
    intro name
    have henums : d'.scope.enumerations.Perm d.scope.enumerations := by
      have hlisted := (hperm.filterMap Block.enumeration?).map fun e => (e.name, e.valueNames)
      exact (List.reverse_perm _).trans (hlisted.trans (List.reverse_perm _).symm)
    have hnodup : (d.scope.enumerations.map Prod.fst).Nodup := by
      show ((d.enumerations.map fun e => (e.name, e.valueNames)).reverse.map Prod.fst).Nodup
      rw [List.map_reverse, List.nodup_reverse, List.map_map]
      exact nodup_name_enumerations h
    exact (lookup_perm henums.symm hnodup name).symm

/-- A document keeps its shape in whatever order. -/
theorem shapeFault?_perm (h : d.shapeFault? = none) (hperm : d'.blocks.Perm d.blocks) :
    d'.shapeFault? = none := by
  obtain ⟨⟨hnodup, -⟩, hmembers⟩ := shapeFaultFrom?_eq_none_iff.1 h
  apply shapeFaultFrom?_eq_none_iff.2
  refine ⟨⟨(hperm.filterMap Block.declares?).nodup_iff.2 hnodup, ?_⟩, ?_⟩
  · intro p hp
    cases hp
  · intro b hb
    exact hmembers b (hperm.mem_iff.1 hb)

theorem shapeFault?_of_ofCheckedSource {source : String}
    (h : Document.ofCheckedSource source = .ok d) : d.shapeFault? = none := by
  have hchecked := (ofCheckedSource_eq_ok.1 h).2
  unfold Document.checked at hchecked
  split at hchecked
  · cases hchecked
  · next hnone => exact hnone

/-- **In whatever order they are declared, models have the same tables.** -/
theorem tables_perm (h : d.shapeFault? = none) (hperm : d'.blocks.Perm d.blocks) :
    d'.tables = d'.models.map (Named.table d.scope) := by
  unfold Document.tables
  apply List.map_congr_left
  intro m _
  exact (agree_scope h hperm).table_eq m

end

/-! ### Violations -/

/-- What the check of the relations reports, in order; nothing when it accepts them. -/
def Document.violations (d : Document) : List DanglingReference :=
  match d.validateRelations with
  | .error (.dangling references) => references
  | _ => []

/-- Whether a type is a name that a list has not. -/
def FieldType.IsUndeclared (declared : List String) : FieldType → Prop
  | named name => name ∉ declared
  | unsupported _ => False

instance (declared : List String) : DecidablePred (FieldType.IsUndeclared declared)
  | .named _ => inferInstanceAs (Decidable (_ ∉ _))
  | .unsupported _ => inferInstanceAs (Decidable False)

/-- Whether a field is a relation to none of the declared models. -/
def Field.IsStray (declared : List String) (f : Field) : Prop :=
  f.type.IsUndeclared declared ∧ ∃ a ∈ f.attributes, a.name = relationAttribute

instance (declared : List String) : DecidablePred (Field.IsStray declared) :=
  fun _ => inferInstanceAs (Decidable (_ ∧ _))

/-- What is reported of a field that is a relation to an undeclared model. -/
def Field.IsReported (m : Model) (f : Field) (r : DanglingReference) : Prop :=
  r.model = m.name ∧ r.field = f.name ∧ f.type = .named r.target

section

variable {d d' : Document} {m : Model} {f : Field} {declared declared' : List String}
  {front behind : List Block}

theorem violations_eq (d : Document) : d.violations = d.danglingRelations := by
  unfold Document.violations Document.validateRelations
  cases d.danglingRelations with
  | nil => rfl
  | cons r rs => rfl

theorem validateRelations_of_ne_nil (h : d.danglingRelations ≠ []) :
    d.validateRelations = .error (.dangling d.danglingRelations) := by
  unfold Document.validateRelations
  split
  · next hnil => exact absurd hnil h
  · rfl

theorem validateRelations_of_eq_nil (h : d.danglingRelations = []) :
    d.validateRelations = .ok () := by
  unfold Document.validateRelations
  rw [h]

theorem isStray_iff {target : String} (hf : f.type = .named target) :
    f.IsStray declared ↔ target ∉ declared ∧ f.hasAttribute relationAttribute = true := by
  unfold Field.IsStray Field.hasAttribute
  rw [hf]
  simp [FieldType.IsUndeclared]

theorem not_isStray {native : String} (hf : f.type = .unsupported native) :
    ¬ f.IsStray declared := by
  rintro ⟨htype, -⟩
  rw [hf] at htype
  exact htype

/-- What is reported of a field is that it strays, and where to. -/
theorem dangling?_eq (declared : List String) (model : String) (f : Field) :
    f.dangling? declared model =
      if f.IsStray declared then f.type.name?.map fun target => ⟨model, f.name, target⟩
      else none := by
  unfold Field.dangling?
  cases hf : f.type with
  | unsupported native => rw [if_neg (not_isStray hf), FieldType.name?]
  | named target =>
    refine if_congr ?_ rfl rfl
    rw [isStray_iff hf, Bool.and_eq_true, and_comm]
    simp

/-- Of the fields of a model, exactly those that are relations to no declared model are reported,
each once and in order. -/
theorem forall₂_isReported (declared : List String) (m : Model) (fs : List Field) :
    List.Forall₂ (Field.IsReported m) (fs.filter (Field.IsStray declared))
      (fs.filterMap (Field.dangling? declared m.name)) := by
  induction fs with
  | nil => exact .nil
  | cons f fs ih =>
    have hreport := dangling?_eq declared m.name f
    by_cases hstray : f.IsStray declared
    · rw [if_pos hstray] at hreport
      rw [List.filter_cons_of_pos (by simpa using hstray)]
      cases hf : f.type with
      | unsupported native =>
        obtain ⟨htype, -⟩ := hstray
        rw [hf] at htype
        exact htype.elim
      | named target =>
        rw [hf, FieldType.name?, Option.map_some] at hreport
        rw [List.filterMap_cons_some hreport]
        exact .cons ⟨rfl, rfl, hf⟩ ih
    · rw [if_neg hstray] at hreport
      rw [List.filter_cons_of_neg (by simpa using hstray), List.filterMap_cons_none hreport]
      exact ih

theorem dangling?_congr (h : ∀ name, declared'.contains name = declared.contains name) :
    Field.dangling? declared' = Field.dangling? declared := by
  funext model f
  unfold Field.dangling?
  simp only [h]

/-- **With one more name declared, what strayed there does so no more**, and all else does. -/
theorem dangling?_insert {name : String}
    (h : ∀ other, other ∈ declared' ↔ other = name ∨ other ∈ declared) (model : String)
    (f : Field) :
    f.dangling? declared' model =
      (f.dangling? declared model).filter fun r => r.target ≠ name := by
  rw [dangling?_eq, dangling?_eq]
  cases hf : f.type with
  | unsupported native => rw [if_neg (not_isStray hf), if_neg (not_isStray hf), Option.filter_none]
  | named target =>
    have hstray' : f.IsStray declared' ↔ f.IsStray declared ∧ target ≠ name := by
      rw [isStray_iff hf, isStray_iff hf, h]
      tauto
    rw [FieldType.name?, Option.map_some]
    by_cases hstray : f.IsStray declared
    · rw [if_pos hstray, Option.filter_some]
      refine if_congr ?_ rfl rfl
      simp [hstray', hstray]
    · rw [if_neg hstray, Option.filter_none, if_neg]
      intro h'
      exact hstray (hstray'.1 h').1

theorem model_of_dangling?_eq_some {model : String} {r : DanglingReference}
    (h : f.dangling? declared model = some r) : r.model = model := by
  rw [dangling?_eq] at h
  split at h
  · obtain ⟨target, -, rfl⟩ := Option.map_eq_some_iff.1 h
    rfl
  · cases h

theorem danglingRelations_perm (hperm : d'.blocks.Perm d.blocks) :
    d'.danglingRelations.Perm d.danglingRelations := by
  unfold Document.danglingRelations
  rw [dangling?_congr (contains_modelNames_perm hperm)]
  exact (hperm.filterMap Block.model?).flatMap_right _

/-- **In whatever order models are declared, their relations are accepted, or the same is reported
of them.** -/
theorem validateRelations_perm (hperm : d'.blocks.Perm d.blocks) :
    d'.validateRelations = .ok () ∧ d.validateRelations = .ok () ∨
      ∃ rs' rs, d'.validateRelations = .error (.dangling rs') ∧
        d.validateRelations = .error (.dangling rs) ∧
        (rs'.map (·.message)).Perm (rs.map (·.message)) := by
  have hviolations := danglingRelations_perm hperm
  by_cases hnil : d.danglingRelations = []
  · left
    have hnil' : d'.danglingRelations = [] := by
      rw [hnil] at hviolations
      exact hviolations.eq_nil
    exact ⟨validateRelations_of_eq_nil hnil', validateRelations_of_eq_nil hnil⟩
  · right
    have hnil' : d'.danglingRelations ≠ [] := by
      intro h'
      rw [h'] at hviolations
      exact hnil hviolations.symm.eq_nil
    exact ⟨_, _, validateRelations_of_ne_nil hnil', validateRelations_of_ne_nil hnil,
      hviolations.map _⟩

/-! ### One more model -/

/-- The violations of some models of a document that declares the given names. -/
def violationsAmong (declared : List String) (ms : List Model) : List DanglingReference :=
  ms.flatMap fun m => m.entries.filterMap (Field.dangling? declared m.name)

theorem model_mem_of_mem_violationsAmong {ms : List Model} {r : DanglingReference}
    (h : r ∈ violationsAmong declared ms) : r.model ∈ ms.map (·.name) := by
  obtain ⟨m, hm, hr⟩ := List.mem_flatMap.1 h
  obtain ⟨f, -, hf⟩ := List.mem_filterMap.1 hr
  rw [model_of_dangling?_eq_some hf]
  exact List.mem_map_of_mem hm

theorem violationsAmong_insert {name : String}
    (h : ∀ other, other ∈ declared' ↔ other = name ∨ other ∈ declared) (ms : List Model) :
    violationsAmong declared' ms =
      (violationsAmong declared ms).filter fun r => r.target ≠ name := by
  unfold violationsAmong
  rw [List.filter_flatMap]
  simp only [List.filter_filterMap, ← dangling?_insert h]

theorem models_insert (front behind : List Block) (m : Model) :
    (Document.mk (front ++ .model .model m :: behind)).models =
      (Document.mk front).models ++ m :: (Document.mk behind).models := by
  simp [Document.models, Block.model?]

theorem models_append (front behind : List Block) :
    (Document.mk (front ++ behind)).models =
      (Document.mk front).models ++ (Document.mk behind).models := by
  simp [Document.models]

/-- The violations of a document are those of its front and those of what is behind it. -/
theorem violations_append (front behind : List Block) :
    let declared := (Document.mk (front ++ behind)).modelNames
    (Document.mk (front ++ behind)).violations =
      violationsAmong declared (Document.mk front).models ++
        violationsAmong declared (Document.mk behind).models := by
  intro declared
  rw [violations_eq]
  show violationsAmong _ (Document.models _) = _
  rw [models_append]
  exact List.flatMap_append

/-- **One more model ends the violations that named it, and adds its own** at its place. -/
theorem danglingRelations_insert (front behind : List Block) (m : Model) :
    let declared := (Document.mk (front ++ behind)).modelNames
    (Document.mk (front ++ .model .model m :: behind)).danglingRelations =
      (violationsAmong declared (Document.mk front).models).filter (fun r => r.target ≠ m.name) ++
        (m.entries.filterMap (Field.dangling? (m.name :: declared) m.name) ++
          (violationsAmong declared (Document.mk behind).models).filter
            (fun r => r.target ≠ m.name)) := by
  intro declared
  have hdeclared : ∀ other,
      other ∈ (Document.mk (front ++ .model .model m :: behind)).modelNames ↔
        other = m.name ∨ other ∈ declared := by
    intro other
    show other ∈ (Document.models _).map _ ↔ _ ∨ other ∈ (Document.models _).map _
    rw [models_insert, models_append]
    simp only [List.map_append, List.map_cons, List.mem_append, List.mem_cons]
    tauto
  have hown : Field.dangling? (Document.mk (front ++ .model .model m :: behind)).modelNames =
      Field.dangling? (m.name :: declared) := by
    apply dangling?_congr
    intro name
    rw [Bool.eq_iff_iff, List.contains_iff_mem, List.contains_iff_mem, hdeclared, List.mem_cons]
  show violationsAmong _ (Document.models _) = _
  rw [models_insert, ← violationsAmong_insert hdeclared, ← violationsAmong_insert hdeclared, ← hown]
  unfold violationsAmong
  rw [List.flatMap_append, List.flatMap_cons]

end

/-- **Tables and violations move with the declarations.**  In whatever order the declarations of an
accepted schema stand, every model has the same table, and the same violations are reported, if
any.  With one more model among the declarations, the violations are, in their order, those that
do not name it, and at its place one for each of its relations whose type is neither it nor a
declared model. -/
theorem declaration_order_is_free {source : String} {d : Document}
    (h : Document.ofCheckedSource source = .ok d) :
    (∀ d' : Document, d'.blocks.Perm d.blocks →
      d'.shapeFault? = none ∧
      d'.tables = d'.models.map (Named.table d.scope) ∧
      (d'.validateRelations = .ok () ∧ d.validateRelations = .ok () ∨
        ∃ rs' rs, d'.validateRelations = .error (.dangling rs') ∧
          d.validateRelations = .error (.dangling rs) ∧
          (rs'.map (·.message)).Perm (rs.map (·.message)))) ∧
    ∀ front behind m, d.blocks = front ++ behind →
      ∃ before after own, d.violations = before ++ after ∧
        (∀ r ∈ before, r.model ∈ (Document.mk front).modelNames) ∧
        (∀ r ∈ after, r.model ∈ (Document.mk behind).modelNames) ∧
        (Document.mk (front ++ .model .model m :: behind)).violations =
          before.filter (fun r => r.target ≠ m.name) ++
            (own ++ after.filter (fun r => r.target ≠ m.name)) ∧
        List.Forall₂ (Field.IsReported m)
          (m.entries.filter (Field.IsStray (m.name :: d.modelNames))) own := by
  have hshape := shapeFault?_of_ofCheckedSource h
  constructor
  · intro d' hperm
    exact ⟨shapeFault?_perm hshape hperm, tables_perm hshape hperm, validateRelations_perm hperm⟩
  · intro front behind m hblocks
    have hd : d = ⟨front ++ behind⟩ := congrArg Document.mk hblocks
    let declared := (Document.mk (front ++ behind)).modelNames
    refine ⟨violationsAmong declared (Document.mk front).models,
      violationsAmong declared (Document.mk behind).models,
      m.entries.filterMap (Field.dangling? (m.name :: declared) m.name), ?_, ?_, ?_, ?_, ?_⟩
    · rw [hd]
      exact violations_append front behind
    · intro r hr
      exact model_mem_of_mem_violationsAmong hr
    · intro r hr
      exact model_mem_of_mem_violationsAmong hr
    · rw [violations_eq]
      exact danglingRelations_insert front behind m
    · rw [hd]
      exact forall₂_isReported (m.name :: declared) m m.entries

/-- A model that refers to one declared behind it and to one that is not declared, and has the
values of an enumeration between them. -/
def crossedSource : String :=
  "model A {
  b B @relation
  c C @relation
  k K
}
enum K {
  x
}
model B {
}
"

/-- What that schema says. -/
def crossedDocument : Document :=
  ⟨[.model .model ⟨"A",
      [.entry ⟨"b", .named "B", none, [⟨"relation", []⟩], none⟩,
        .entry ⟨"c", .named "C", none, [⟨"relation", []⟩], none⟩,
        .entry ⟨"k", .named "K", none, [], none⟩]⟩,
    .enumeration ⟨"K", [.entry ⟨"x", [], none⟩]⟩,
    .model .model ⟨"B", []⟩]⟩

theorem declaration_order_is_free_sample :
    Document.ofCheckedSource crossedSource = .ok crossedDocument ∧
      (Document.mk crossedDocument.blocks.reverse).tables =
        (Document.mk crossedDocument.blocks.reverse).models.map
          (Named.table crossedDocument.scope) ∧
      ∃ before after own, crossedDocument.violations = before ++ after ∧
        (Document.mk (crossedDocument.blocks ++ [.model .model ⟨"C", []⟩])).violations =
          before.filter (fun r => r.target ≠ "C") ++
            (own ++ after.filter (fun r => r.target ≠ "C")) := by
  have hread : Document.ofCheckedSource crossedSource = .ok crossedDocument := by cbv
  obtain ⟨hperm, hinsert⟩ := declaration_order_is_free hread
  obtain ⟨-, htables, -⟩ := hperm ⟨crossedDocument.blocks.reverse⟩ (List.reverse_perm _)
  obtain ⟨before, after, own, hsplit, -, -, hviolations, -⟩ :=
    hinsert crossedDocument.blocks [] ⟨"C", []⟩ (List.append_nil _).symm
  exact ⟨hread, htables, before, after, own, hsplit, hviolations⟩

end SchemaForge.Schema
