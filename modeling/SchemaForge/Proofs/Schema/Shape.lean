import SchemaForge.Proofs.Schema.Rearranged

/-!
# Names declared once

The check of the shape lets a document pass exactly when it declares each name once.  Otherwise it
reports the first block at fault: one that has the name of a block in front of it, or one with a
member twice.  Of a block with both faults it reports the name.

## Main definitions

* `Document.DeclaresOnce` — no name is declared twice, of blocks or of members.
* `Block.HasFault` — what is wrong with a block, given the names declared in front of it.
* `Document.IsFirstFault` — what is wrong with the first block at fault.

## Main results

* `shapeFault?_eq_none_iff` — the documents that pass.
* `shapeFault?_eq_some_iff` — what is reported of the others.
* `nodup_name_columns` — where fields have different names, so have columns.
* `shape_check_reports_first_fault` — **the check is exact and reports the first fault.**
-/

namespace SchemaForge.Schema

/-! ### Names of a document -/

/-- The name that a model, an enumeration, a composite type or a view declares. -/
def Block.typeName? : Block → Option String
  | model _ m => some m.name
  | enumeration e => some e.name
  | _ => none

/-- The names of the fields of a model, a composite type or a view, or those of the values of an
enumeration. -/
def Block.memberNames : Block → List String
  | model _ m => m.entries.map (·.name)
  | enumeration e => e.valueNames
  | _ => []

/-- The names declared in a space, in order. -/
def Document.namesIn (d : Document) : NameSpace → List String
  | .type => d.blocks.filterMap Block.typeName?
  | .datasource => d.datasources.map (·.name)
  | .generator => d.generators.map (·.name)

/-- No name is declared twice. -/
structure Document.DeclaresOnce (d : Document) : Prop where
  /-- Models, enumerations, composite types and views have different names. -/
  types : (d.namesIn .type).Nodup
  /-- Datasources have different names. -/
  datasources : (d.namesIn .datasource).Nodup
  /-- Generators have different names. -/
  generators : (d.namesIn .generator).Nodup
  /-- The members of a block have different names. -/
  members : ∀ b ∈ d.blocks, b.memberNames.Nodup

/-- What is wrong with a block, given the names declared in front of it: its own name is one of
them, or, if it is not, a member repeats an earlier one, and is the first that does. -/
inductive Block.HasFault (declared : List (NameSpace × String)) : Block → ShapeFault → Prop
  /-- The name of the block is declared in front of it. -/
  | block {b : Block} {space : NameSpace} {name : String} (hname : b.declares? = some (space, name))
    (hdeclared : (space, name) ∈ declared) : HasFault declared b (.block space name)
  /-- The name is new, but two fields are called the same. -/
  | field {kind : ModelKind} {m : Model} {name : String} {before behind : List String}
    (hnew : (.type, m.name) ∉ declared)
    (hfields : m.entries.map (·.name) = before ++ name :: behind) (hbefore : before.Nodup)
    (hname : name ∈ before) : HasFault declared (.model kind m) (.field name m.name)
  /-- The name is new, but two values are called the same. -/
  | value {e : Enumeration} {name : String} {before behind : List String}
    (hnew : (.type, e.name) ∉ declared) (hvalues : e.valueNames = before ++ name :: behind)
    (hbefore : before.Nodup) (hname : name ∈ before) :
    HasFault declared (.enumeration e) (.value name e.name)

/-- What is wrong with the first block at fault: the blocks in front of it declare each name
once. -/
def Document.IsFirstFault (d : Document) (fault : ShapeFault) : Prop :=
  ∃ front b behind, d.blocks = front ++ b :: behind ∧ (Document.mk front).DeclaresOnce ∧
    b.HasFault (front.filterMap Block.declares?) fault

/-! ### Members of a block -/

section

variable {α : Type} [DecidableEq α] {seen l : List α} {a : α}

theorem firstRepeat?_eq_none_iff :
    firstRepeat? seen l = none ↔ l.Nodup ∧ ∀ b ∈ seen, b ∉ l := by
  induction l generalizing seen with
  | nil => simp [firstRepeat?]
  | cons b l ih =>
    rw [firstRepeat?]
    by_cases hb : b ∈ seen
    · simp only [if_pos hb]
      constructor
      · intro h
        cases h
      · rintro ⟨-, h⟩
        exact absurd List.mem_cons_self (h b hb)
    · rw [if_neg hb, ih]
      simp only [List.nodup_cons, List.mem_cons, forall_eq_or_imp, not_or]
      constructor
      · rintro ⟨hnodup, hnew, hseen⟩
        refine ⟨⟨hnew, hnodup⟩, fun c hc => ⟨?_, hseen c hc⟩⟩
        rintro rfl
        exact hb hc
      · rintro ⟨⟨hnew, hnodup⟩, hseen⟩
        exact ⟨hnodup, hnew, fun c hc => (hseen c hc).2⟩

/-- **The first repeated name**: the names in front of it are new and different, and it is one of
them or was seen before. -/
theorem firstRepeat?_eq_some_iff :
    firstRepeat? seen l = some a ↔
      ∃ before behind, l = before ++ a :: behind ∧ firstRepeat? seen before = none ∧
        (a ∈ seen ∨ a ∈ before) := by
  induction l generalizing seen with
  | nil => simp [firstRepeat?]
  | cons b l ih =>
    rw [firstRepeat?]
    by_cases hb : b ∈ seen
    · rw [if_pos hb, Option.some.injEq]
      constructor
      · rintro rfl
        exact ⟨[], l, rfl, rfl, .inl hb⟩
      · rintro ⟨before, behind, hl, hbefore, -⟩
        cases before with
        | nil => exact (List.cons.inj hl).1
        | cons c before =>
          obtain ⟨rfl, -⟩ := List.cons.inj hl
          rw [firstRepeat?, if_pos hb] at hbefore
          cases hbefore
    · rw [if_neg hb, ih]
      constructor
      · rintro ⟨before, behind, rfl, hbefore, ha⟩
        refine ⟨b :: before, behind, rfl, ?_, ?_⟩
        · rwa [firstRepeat?, if_neg hb]
        · simp only [List.mem_cons] at ha ⊢
          tauto
      · rintro ⟨before, behind, hl, hbefore, ha⟩
        cases before with
        | nil =>
          obtain ⟨rfl, -⟩ := List.cons.inj hl
          simp [hb] at ha
        | cons c before =>
          obtain ⟨rfl, rfl⟩ := List.cons.inj hl
          rw [firstRepeat?, if_neg hb] at hbefore
          refine ⟨before, behind, rfl, hbefore, ?_⟩
          simp only [List.mem_cons] at ha ⊢
          tauto

end

section

variable {b : Block} {bs : List Block} {declared seen : List (NameSpace × String)}
  {fault : ShapeFault} {d : Document}

theorem memberFault?_eq_none_iff : b.memberFault? = none ↔ b.memberNames.Nodup := by
  cases b with
  | model kind m => simp [Block.memberFault?, Block.memberNames, firstRepeat?_eq_none_iff]
  | enumeration e => simp [Block.memberFault?, Block.memberNames, firstRepeat?_eq_none_iff]
  | settings kind s => simp [Block.memberFault?, Block.memberNames]
  | comment text => simp [Block.memberFault?, Block.memberNames]

/-! ### The first block at fault -/

/-- The fault of a block behind others that declared `seen`. -/
def Block.faultAfter? (seen : List (NameSpace × String)) (b : Block) : Option ShapeFault :=
  shapeFaultFrom? seen [b]

/-- A name that repeats one in front of it, while those differ. -/
theorem firstRepeat?_nil_eq_some_iff {l : List String} {name : String} :
    firstRepeat? [] l = some name ↔
      ∃ before behind, l = before ++ name :: behind ∧ before.Nodup ∧ name ∈ before := by
  simp [firstRepeat?_eq_some_iff, firstRepeat?_eq_none_iff]

theorem faultAfter?_eq_some_iff :
    b.faultAfter? seen = some fault ↔ b.HasFault seen fault := by
  have hblock {space : NameSpace} {name : String} (hname : b.declares? = some (space, name))
      (hseen : (space, name) ∈ seen) :
      b.faultAfter? seen = some fault ↔ fault = .block space name := by
    simp [Block.faultAfter?, shapeFaultFrom?, hname, hseen, eq_comm]
  have hmember (hnew : ∀ p ∈ b.declares?, p ∉ seen) :
      b.faultAfter? seen = some fault ↔ b.memberFault? = some fault := by
    cases hname : b.declares? with
    | none => simp [Block.faultAfter?, shapeFaultFrom?, hname]
    | some p => simp [Block.faultAfter?, shapeFaultFrom?, hname, hnew p hname]
  constructor
  · intro h
    by_cases hseen : ∃ p ∈ b.declares?, p ∈ seen
    · obtain ⟨⟨space, name⟩, hname, hseen⟩ := hseen
      obtain rfl := (hblock hname hseen).1 h
      exact .block hname hseen
    · have hnew : ∀ p ∈ b.declares?, p ∉ seen := fun p hp hmem => hseen ⟨p, hp, hmem⟩
      rw [hmember hnew] at h
      cases b with
      | model kind m =>
        obtain ⟨name, hrepeat, rfl⟩ := Option.map_eq_some_iff.1 h
        obtain ⟨before, behind, hfields, hbefore, hname⟩ := firstRepeat?_nil_eq_some_iff.1 hrepeat
        exact .field (hnew _ rfl) hfields hbefore hname
      | enumeration e =>
        obtain ⟨name, hrepeat, rfl⟩ := Option.map_eq_some_iff.1 h
        obtain ⟨before, behind, hvalues, hbefore, hname⟩ := firstRepeat?_nil_eq_some_iff.1 hrepeat
        exact .value (hnew _ rfl) hvalues hbefore hname
      | settings kind s => cases h
      | comment text => cases h
  · intro h
    cases h with
    | block hname hseen => exact (hblock hname hseen).2 rfl
    | field hnew hfields hbefore hname =>
      rw [hmember (by rintro p ⟨⟩; exact hnew)]
      exact Option.map_eq_some_iff.2
        ⟨_, firstRepeat?_nil_eq_some_iff.2 ⟨_, _, hfields, hbefore, hname⟩, rfl⟩
    | value hnew hvalues hbefore hname =>
      rw [hmember (by rintro p ⟨⟩; exact hnew)]
      exact Option.map_eq_some_iff.2
        ⟨_, firstRepeat?_nil_eq_some_iff.2 ⟨_, _, hvalues, hbefore, hname⟩, rfl⟩

/-- A list of blocks has the fault of its first block, else that of the others. -/
theorem shapeFaultFrom?_cons :
    shapeFaultFrom? seen (b :: bs) =
      (b.faultAfter? seen).or (shapeFaultFrom? (b.declares?.toList ++ seen) bs) := by
  rw [Block.faultAfter?, shapeFaultFrom?, shapeFaultFrom?]
  cases b.declares? with
  | none => simp [shapeFaultFrom?]
  | some p =>
    obtain ⟨space, name⟩ := p
    by_cases hseen : (space, name) ∈ seen <;> simp [shapeFaultFrom?, hseen]

/-- **Blocks are judged by what was declared in front of them**, in whatever order. -/
theorem Block.HasFault.congr (h : b.HasFault seen fault) (hseen : ∀ p, p ∈ seen ↔ p ∈ declared) :
    b.HasFault declared fault := by
  cases h with
  | block hname hmem => exact .block hname ((hseen _).1 hmem)
  | field hnew hfields hbefore hname =>
    exact .field (fun hmem => hnew ((hseen _).2 hmem)) hfields hbefore hname
  | value hnew hvalues hbefore hname =>
    exact .value (fun hmem => hnew ((hseen _).2 hmem)) hvalues hbefore hname

/-- The fault of a list of blocks is that of the first block at fault. -/
theorem shapeFaultFrom?_eq_some_iff :
    shapeFaultFrom? seen bs = some fault ↔
      ∃ front b behind, bs = front ++ b :: behind ∧ shapeFaultFrom? seen front = none ∧
        b.HasFault (seen ++ front.filterMap Block.declares?) fault := by
  induction bs generalizing seen with
  | nil => simp [shapeFaultFrom?]
  | cons c bs ih =>
    rw [shapeFaultFrom?_cons, Option.or_eq_some_iff, faultAfter?_eq_some_iff, ih]
    -- the declared names of `c` stand in front of those seen, or behind them
    have hseen (front : List Block) (p : NameSpace × String) :
        p ∈ c.declares?.toList ++ seen ++ front.filterMap Block.declares? ↔
          p ∈ seen ++ (c :: front).filterMap Block.declares? := by
      cases hname : c.declares? with
      | none => simp [hname]
      | some q =>
        simp only [Option.toList_some, List.filterMap_cons_some hname, List.mem_append,
          List.mem_cons, List.not_mem_nil]
        tauto
    constructor
    · rintro (hfault | ⟨hnone, front, b, behind, rfl, hfront, hfault⟩)
      · exact ⟨[], c, bs, rfl, rfl, by simpa using hfault⟩
      · refine ⟨c :: front, b, behind, rfl, ?_, hfault.congr (hseen front)⟩
        rw [shapeFaultFrom?_cons, Option.or_eq_none_iff]
        exact ⟨hnone, hfront⟩
    · rintro ⟨front, b, behind, hbs, hfront, hfault⟩
      cases front with
      | nil =>
        obtain ⟨rfl, -⟩ := List.cons.inj hbs
        exact .inl (by simpa using hfault)
      | cons c' front =>
        obtain ⟨rfl, rfl⟩ := List.cons.inj hbs
        rw [shapeFaultFrom?_cons, Option.or_eq_none_iff] at hfront
        exact .inr ⟨hfront.1, front, b, behind, rfl, hfront.2,
          hfault.congr fun p => (hseen front p).symm⟩

/-! ### Documents that pass -/

/-- Declared names differ when those of one space do. -/
theorem nodup_iff_forall_space {l : List (NameSpace × String)} :
    l.Nodup ↔ ∀ space, (l.filterMap fun p => if p.1 = space then some p.2 else none).Nodup := by
  constructor
  · intro h space
    apply h.filterMap
    rintro ⟨space₁, name₁⟩ ⟨space₂, name₂⟩ name h₁ h₂
    simp only [Option.mem_def, Option.ite_none_right_eq_some, Option.some.injEq] at h₁ h₂
    rw [h₁.1, h₁.2, h₂.1, h₂.2]
  · intro h
    rw [List.nodup_iff_sublist]
    rintro ⟨space, name⟩ hsublist
    have htwice := hsublist.filterMap fun p => if p.1 = space then some p.2 else none
    exact List.nodup_iff_sublist.1 (h space) name (by simpa using htwice)

/-- The names of a space are those that the blocks declare in it. -/
theorem namesIn_eq (d : Document) (space : NameSpace) :
    d.namesIn space =
      (d.blocks.filterMap Block.declares?).filterMap
        fun p => if p.1 = space then some p.2 else none := by
  rw [List.filterMap_filterMap]
  cases space
  all_goals
    -- the names of every space are read block by block
    simp only [Document.namesIn, Document.datasources, Document.generators, List.map_filterMap]
    apply List.filterMap_congr
    intro b _
    cases b with
    | settings kind s => cases kind <;> rfl
    | _ => rfl

theorem declaresOnce_iff :
    d.DeclaresOnce ↔ (∀ space, (d.namesIn space).Nodup) ∧ ∀ b ∈ d.blocks, b.memberNames.Nodup := by
  constructor
  · rintro ⟨htypes, hdatasources, hgenerators, hmembers⟩
    refine ⟨?_, hmembers⟩
    rintro (_ | _ | _)
    exacts [htypes, hdatasources, hgenerators]
  · rintro ⟨hnames, hmembers⟩
    exact ⟨hnames _, hnames _, hnames _, hmembers⟩

/-- **The documents that pass are those that declare each name once.** -/
theorem shapeFault?_eq_none_iff : d.shapeFault? = none ↔ d.DeclaresOnce := by
  rw [Document.shapeFault?, shapeFaultFrom?_eq_none_iff, declaresOnce_iff]
  simp only [namesIn_eq, ← nodup_iff_forall_space, memberFault?_eq_none_iff]
  simp

instance (d : Document) : Decidable d.DeclaresOnce :=
  decidable_of_iff (d.shapeFault? = none) shapeFault?_eq_none_iff

/-- **What is reported is what is wrong with the first block at fault.** -/
theorem shapeFault?_eq_some_iff : d.shapeFault? = some fault ↔ d.IsFirstFault fault := by
  rw [Document.shapeFault?, shapeFaultFrom?_eq_some_iff]
  simp only [Document.IsFirstFault, ← shapeFault?_eq_none_iff, List.nil_append]
  rfl

/-! ### Tables of documents that pass -/

/-- Columns have the names of fields, in the order of the fields. -/
theorem map_name_columns_sublist (d : Document) (m : Model) :
    ((m.table d.scope).columns.map (·.name)).Sublist (m.entries.map (·.name)) := by
  rw [Named.table, List.map_filterMap, ← List.filterMap_eq_map]
  apply filterMap_sublist_filterMap
  intro f
  cases hcolumn : f.column? d.scope m with
  | none => exact .inl rfl
  | some c =>
    obtain ⟨⟨hname, -⟩, -⟩ := column?_eq_some hcolumn
    exact .inr (congrArg some hname)

/-- **Where fields have different names, so have columns.** -/
theorem nodup_name_columns (h : d.DeclaresOnce) {t : Table} (ht : t ∈ d.tables) :
    (t.columns.map (·.name)).Nodup := by
  obtain ⟨m, hm, rfl⟩ := List.mem_map.1 ht
  obtain ⟨b, hb, hmodel⟩ := List.mem_filterMap.1 hm
  have hfields := h.members b hb
  cases b with
  | model kind m' =>
    cases kind with
    | model =>
      obtain rfl := Option.some.inj hmodel
      exact hfields.sublist (map_name_columns_sublist d m')
    | _ => cases hmodel
  | _ => cases hmodel

theorem nodup_name_tables (h : d.DeclaresOnce) : (d.tables.map (·.name)).Nodup := by
  have hmodels : d.modelNames.Sublist (d.namesIn .type) := by
    rw [Document.modelNames, Document.models, List.map_filterMap, Document.namesIn]
    apply filterMap_sublist_filterMap
    intro b
    cases b with
    | model kind m => cases kind <;> simp [Block.model?, Block.typeName?]
    | _ => exact .inl rfl
  rw [map_name_tables]
  exact h.types.sublist hmodels

end

/-! ### The check -/

theorem ofCheckedSource_of_ofSource {source : String} {d : Document}
    (h : Document.ofSource source = .ok d) : Document.ofCheckedSource source = d.checked := by
  rw [Document.ofCheckedSource, h]
  rfl

/-- **The check is exact and reports the first fault.**  Of the texts that spell a document, those
are accepted whose document declares each name once.  Of any other, what is reported is what is
wrong with the first block at fault, and no place.  So the tables of an accepted text have different
names in the schema, and so have the columns of each; the names of tables in the database come from
attributes, which are not checked. -/
theorem shape_check_reports_first_fault (source : String) :
    (∀ d, Document.ofCheckedSource source = .ok d ↔
      Document.ofSource source = .ok d ∧ d.DeclaresOnce) ∧
    (∀ d, Document.ofSource source = .ok d → ¬ d.DeclaresOnce →
      ∃ fault, Document.ofCheckedSource source = .error (.shape fault) ∧
        (SourceError.shape fault).report = ⟨fault.message, none⟩ ∧
        ∀ other, d.IsFirstFault other ↔ other = fault) ∧
    ∀ d, Document.ofCheckedSource source = .ok d →
      (d.tables.map (·.name)).Nodup ∧ ∀ t ∈ d.tables, (t.columns.map (·.name)).Nodup := by
  have haccepted (d : Document) : Document.ofCheckedSource source = .ok d ↔
      Document.ofSource source = .ok d ∧ d.DeclaresOnce := by
    rw [ofCheckedSource_eq_ok, ← shapeFault?_eq_none_iff]
    apply and_congr_right
    intro _
    cases hfault : d.shapeFault? <;> simp [Document.checked, hfault]
  refine ⟨haccepted, ?_, ?_⟩
  · intro d hd hrepeats
    rw [← shapeFault?_eq_none_iff] at hrepeats
    obtain ⟨fault, hfault⟩ := Option.ne_none_iff_exists'.1 hrepeats
    refine ⟨fault, ?_, rfl, ?_⟩
    · rw [ofCheckedSource_of_ofSource hd, Document.checked, hfault]
    · intro other
      rw [← shapeFault?_eq_some_iff, hfault, Option.some.injEq, eq_comm]
  · intro d hd
    have honce := ((haccepted d).1 hd).2
    exact ⟨nodup_name_tables honce, fun t ht => nodup_name_columns honce ht⟩

/-- A schema in which a model has the name of an enumeration, and a field twice. -/
def repeatedSource : String :=
  "enum Role \x7b\n  user\n\x7d\n// again\nmodel Role \x7b\n  id Int\n  id Int\n\x7d\n"

/-- What that schema says. -/
def repeatedDocument : Document :=
  ⟨[.enumeration ⟨"Role", [.entry ⟨"user", [], none⟩]⟩, .comment "// again",
    .model .model ⟨"Role", [.entry ⟨"id", .named "Int", none, [], none⟩,
      .entry ⟨"id", .named "Int", none, [], none⟩]⟩]⟩

theorem shape_check_reports_first_fault_sample :
    (Document.ofSource sampleSource = .ok sampleDocument ∧ sampleDocument.DeclaresOnce ∧
      Document.ofCheckedSource sampleSource = .ok sampleDocument ∧
      (sampleDocument.tables.map (·.name)).Nodup) ∧
    Document.ofSource repeatedSource = .ok repeatedDocument ∧ ¬ repeatedDocument.DeclaresOnce ∧
      repeatedDocument.IsFirstFault (.block .type "Role") ∧
      Document.ofCheckedSource repeatedSource = .error (.shape (.block .type "Role")) := by
  have hread : Document.ofSource repeatedSource = .ok repeatedDocument := by cbv
  have honce : sampleDocument.DeclaresOnce := by decide
  have hrepeats : ¬ repeatedDocument.DeclaresOnce := by decide
  have hfirst : repeatedDocument.IsFirstFault (.block .type "Role") := by
    refine ⟨repeatedDocument.blocks.take 2, _, [], rfl, by decide, ?_⟩
    exact .block rfl (by decide)
  obtain ⟨haccepted, -, htables⟩ := shape_check_reports_first_fault sampleSource
  have hchecked := (haccepted sampleDocument).2 ⟨ofSource_sampleSource, honce⟩
  obtain ⟨-, hrefused, -⟩ := shape_check_reports_first_fault repeatedSource
  obtain ⟨fault, herror, -, honly⟩ := hrefused repeatedDocument hread hrepeats
  obtain rfl := (honly _).1 hfirst
  exact ⟨⟨ofSource_sampleSource, honce, hchecked, (htables _ hchecked).1⟩, hread, hrepeats, hfirst,
    herror⟩

end SchemaForge.Schema
