import SchemaForge.Artifact.Plan
import SchemaForge.Proofs.Name.Stem
import SchemaForge.Proofs.Path

/-!
# Files on one path

The name of a file is a stem of its model and the ending of its kind.  No ending is the end of
another, so files on one path have one kind and one stem, even where all kinds share a directory.
Every table has a service, whose stem is the model name in small letters, and tables with one stem
of another kind have one service stem.  So two tables have a file on one path exactly when their
model names are the same in small letters.

## Main definitions

* `ArtifactKind.stem`, `ArtifactKind.ending` — the two parts of a file's name.
* `Clash` — two tables whose model names are the same in small letters.
* `Collision.IsFirst` — a collision is about the first clash.

## Main results

* `Table.exists_same_iff` — **tables have a file on one path when they have one service stem.**
* `plan_eq_ok_iff` — a plan has an answer when no tables clash.
* `plan_eq_error` — a plan is refused at the first table that has a file on an earlier path.
* `plan_refuses_clashes` — **a plan is refused exactly for clashes.**
-/

namespace SchemaForge

/-! ### Names of files -/

namespace ArtifactKind

/-- What the name of a model's file starts with. -/
def stem (kind : ArtifactKind) (model : String) : String :=
  match kind with
  | schema | types | form => Name.kebab model
  | service => Name.serviceStem model

/-- What the name of a file ends in. -/
def ending : ArtifactKind → String
  | schema => "-schemas.ts"
  | service => "-service.ts"
  | types => "-types.ts"
  | form => "-form-schema.ts"

theorem fileName_eq (kind : ArtifactKind) (model : String) :
    kind.fileName model = kind.stem model ++ kind.ending := by
  cases kind <;> rfl

/-- No ending is the end of another. -/
theorem eq_of_ending_isSuffix {kind kind' : ArtifactKind}
    (h : kind.ending.toList <:+ kind'.ending.toList) : kind = kind' := by
  revert h
  cases kind <;> cases kind' <;> decide

/-- A name of a file has one reading. -/
theorem fileName_inj {kind kind' : ArtifactKind} {model model' : String}
    (h : kind.fileName model = kind'.fileName model') :
    kind = kind' ∧ kind.stem model = kind'.stem model' := by
  rw [fileName_eq, fileName_eq, ← String.toList_inj, String.toList_append,
    String.toList_append] at h
  have hkind : kind = kind' := by
    have hending : kind.ending.toList <:+ (kind'.stem model').toList ++ kind'.ending.toList :=
      ⟨_, h⟩
    rcases List.suffix_or_suffix_of_suffix hending (List.suffix_append _ _) with hsuffix | hsuffix
    · exact eq_of_ending_isSuffix hsuffix
    · exact (eq_of_ending_isSuffix hsuffix).symm
  subst hkind
  exact ⟨rfl, String.toList_inj.1 (List.append_cancel_right h)⟩

/-- Models with one stem of any kind have one service stem. -/
theorem serviceStem_eq_of_stem_eq {kind : ArtifactKind} {s t : Table}
    (h : kind.stem s.modelName = kind.stem t.modelName) :
    Name.serviceStem s.modelName = Name.serviceStem t.modelName := by
  have hs := Name.isAlphanumeric_modelName s
  have ht := Name.isAlphanumeric_modelName t
  cases kind with
  | service => exact h
  | schema | types | form => exact Name.serviceStem_eq_of_kebab_eq hs ht h

theorem slash_not_mem_stem (kind : ArtifactKind) (t : Table) :
    '/' ∉ (kind.stem t.modelName).toList := by
  cases kind with
  | service => exact Name.slash_not_mem_serviceStem (Name.isAlphanumeric_modelName t)
  | schema | types | form => exact Name.slash_not_mem_kebab t.modelName

theorem slash_not_mem_ending (kind : ArtifactKind) : '/' ∉ kind.ending.toList := by
  cases kind <;> decide

theorem two_lt_length_ending (kind : ArtifactKind) : 2 < kind.ending.toList.length := by
  cases kind <;> decide

/-- **The name of a file is one name**, whatever the name of its table. -/
theorem isName_fileName (kind : ArtifactKind) (t : Table) :
    Path.IsName (kind.fileName t.modelName) where
  slash := by
    rw [fileName_eq, String.toList_append, List.mem_append, not_or]
    exact ⟨slash_not_mem_stem kind t, slash_not_mem_ending kind⟩
  ne := by
    intro hmem
    have hlong := two_lt_length_ending kind
    have hlength : (kind.fileName t.modelName).toList.length =
        (kind.stem t.modelName).toList.length + kind.ending.toList.length := by
      rw [fileName_eq, String.toList_append, List.length_append]
    have hshort : ∀ name ∈ ["", ".", ".."], name.toList.length ≤ 2 := by decide
    have := hshort _ hmem
    omega

end ArtifactKind

/-! ### Paths of files -/

theorem Layout.components_pathFor (l : Layout) (kind : ArtifactKind) (t : Table) :
    (l.pathFor kind t.modelName).components =
      (l.directory kind).components ++ [.name (kind.fileName t.modelName)] :=
  Path.components_child _ (kind.isName_fileName t)

namespace Table

variable {o : EmitOptions} {s t : Table} {f g : GeneratedFile}

theorem mem_files :
    f ∈ t.files o ↔ ∃ kind ∈ t.artifactKinds o.forms,
      f = ⟨o.layout.pathFor kind t.modelName, kind.content o.imports t, kind, t.modelName⟩ := by
  rw [files, List.mem_map]
  constructor
  · rintro ⟨kind, hkind, rfl⟩
    exact ⟨kind, hkind, rfl⟩
  · rintro ⟨kind, hkind, rfl⟩
    exact ⟨kind, hkind, rfl⟩

theorem nodup_artifactKinds (forms : Bool) (t : Table) : (t.artifactKinds forms).Nodup := by
  rw [artifactKinds]
  split
  · decide
  · split <;> decide

theorem service_mem_artifactKinds (forms : Bool) (t : Table) :
    ArtifactKind.service ∈ t.artifactKinds forms := by
  rw [artifactKinds]
  split
  · decide
  · split <;> decide

theorem model_of_mem_files (h : f ∈ t.files o) : f.model = t.modelName := by
  obtain ⟨kind, -, rfl⟩ := mem_files.1 h
  rfl

theorem name?_of_mem_files (h : f ∈ t.files o) :
    f.path.name? = some (f.kind.fileName t.modelName) := by
  obtain ⟨kind, -, rfl⟩ := mem_files.1 h
  exact Path.name?_child _ (kind.isName_fileName t)

/-- A table has no two files of one name. -/
theorem pairwise_namedApart_files (o : EmitOptions) (t : Table) :
    (t.files o).Pairwise fun f g => f.path.NamedApart g.path := by
  have hkinds : (t.files o).Pairwise fun f g => f.kind ≠ g.kind := by
    rw [files, List.pairwise_map]
    exact nodup_artifactKinds o.forms t
  refine hkinds.imp_of_mem ?_
  intro f g hf hg hne
  refine ⟨_, _, name?_of_mem_files hf, name?_of_mem_files hg, ?_⟩
  intro heq
  exact hne (ArtifactKind.fileName_inj heq).1

/-- Tables with different service stems have no two files of one name. -/
theorem namedApart_of_serviceStem_ne (hf : f ∈ s.files o) (hg : g ∈ t.files o)
    (hne : Name.serviceStem s.modelName ≠ Name.serviceStem t.modelName) :
    f.path.NamedApart g.path := by
  refine ⟨_, _, name?_of_mem_files hf, name?_of_mem_files hg, ?_⟩
  intro heq
  obtain ⟨hkind, hstem⟩ := ArtifactKind.fileName_inj heq
  rw [hkind] at hstem
  exact hne (ArtifactKind.serviceStem_eq_of_stem_eq hstem)

/-- **Two tables have a file on one path when they have one service stem**, and only then. -/
theorem exists_same_iff (o : EmitOptions) (s t : Table) :
    (∃ f ∈ s.files o, ∃ g ∈ t.files o, f.path.same g.path = true) ↔
      Name.serviceStem s.modelName = Name.serviceStem t.modelName := by
  constructor
  · rintro ⟨f, hf, g, hg, hsame⟩
    by_contra hne
    exact (namedApart_of_serviceStem_ne hf hg hne).not_same hsame
  · intro h
    have hpath : o.layout.pathFor .service s.modelName =
        o.layout.pathFor .service t.modelName := by
      show o.layout.services.child (Name.serviceStem s.modelName ++ _) =
        o.layout.services.child (Name.serviceStem t.modelName ++ _)
      rw [h]
    refine ⟨_, mem_files.2 ⟨.service, service_mem_artifactKinds o.forms s, rfl⟩,
      _, mem_files.2 ⟨.service, service_mem_artifactKinds o.forms t, rfl⟩, ?_⟩
    rw [Path.same_iff, hpath]

end Table

/-! ### Collisions -/

/-- Two files are on different paths. -/
def GeneratedFile.Apart (f g : GeneratedFile) : Prop :=
  ¬ f.path.same g.path = true

theorem collisionFrom?_cons_of_apart {seen rest : List GeneratedFile} {f : GeneratedFile}
    (h : ∀ g ∈ seen, g.Apart f) :
    collisionFrom? seen (f :: rest) = collisionFrom? (f :: seen) rest := by
  rw [collisionFrom?, List.find?_eq_none.2 h]

/-- No file is found on an earlier path exactly when all are on different ones. -/
theorem collisionFrom?_eq_none_iff {seen files : List GeneratedFile} :
    collisionFrom? seen files = none ↔
      files.Pairwise GeneratedFile.Apart ∧ ∀ g ∈ seen, ∀ f ∈ files, g.Apart f := by
  induction files generalizing seen with
  | nil => simp [collisionFrom?]
  | cons f rest ih =>
    by_cases hf : ∀ g ∈ seen, g.Apart f
    · rw [collisionFrom?_cons_of_apart hf, ih, List.pairwise_cons, List.forall_mem_cons]
      constructor
      · rintro ⟨hrest, hfrest, hseen⟩
        exact ⟨⟨hfrest, hrest⟩, fun g hg => List.forall_mem_cons.2 ⟨hf g hg, hseen g hg⟩⟩
      · rintro ⟨⟨hfrest, hrest⟩, hseen⟩
        exact ⟨hrest, hfrest, fun g hg => (List.forall_mem_cons.1 (hseen g hg)).2⟩
    · constructor
      · intro h
        rcases hfind : seen.find? (fun g => g.path.same f.path) with _ | g
        · exact absurd (List.find?_eq_none.1 hfind) hf
        · rw [collisionFrom?, hfind] at h
          cases h
      · rintro ⟨-, hseen⟩
        exact absurd (fun g hg => hseen g hg f List.mem_cons_self) hf

/-- A file is found at the first place where it is on an earlier path. -/
theorem collisionFrom?_eq_some {seen files : List GeneratedFile} {c : Collision}
    (h : collisionFrom? seen files = some c) :
    ∃ before f after g, files = before ++ f :: after ∧ before.Pairwise GeneratedFile.Apart ∧
      (∀ g ∈ seen, ∀ f ∈ before, g.Apart f) ∧ (g ∈ seen ∨ g ∈ before) ∧
      g.path.same f.path = true ∧ c = ⟨f.path, g.model, f.model⟩ := by
  induction files generalizing seen with
  | nil => cases h
  | cons f rest ih =>
    rcases hfind : seen.find? (fun g => g.path.same f.path) with _ | g
    · have hapart := List.find?_eq_none.1 hfind
      rw [collisionFrom?_cons_of_apart hapart] at h
      obtain ⟨before, f', after, g, rfl, hbefore, hseen, hg, hsame, hc⟩ := ih h
      obtain ⟨hf, hseen⟩ := List.forall_mem_cons.1 hseen
      refine ⟨f :: before, f', after, g, rfl, List.pairwise_cons.2 ⟨hf, hbefore⟩, ?_, ?_, hsame, hc⟩
      · intro g hg
        exact List.forall_mem_cons.2 ⟨hapart g hg, hseen g hg⟩
      · rw [List.mem_cons] at hg ⊢
        rcases hg with (rfl | hg) | hg
        · exact .inr (.inl rfl)
        · exact .inl hg
        · exact .inr (.inr hg)
    · rw [collisionFrom?, hfind] at h
      cases h
      refine ⟨[], f, rest, g, rfl, .nil, ?_, .inl (List.mem_of_find?_eq_some hfind), ?_, rfl⟩
      · intro g hg f hf
        cases hf
      · have hsame := List.find?_some hfind
        exact hsame

/-- Every table has a service. -/
theorem plannedFiles_eq_nil_iff {o : EmitOptions} {tables : List Table} :
    plannedFiles o tables = [] ↔ tables = [] := by
  rw [plannedFiles, List.flatMap_eq_nil_iff]
  constructor
  · intro h
    refine List.eq_nil_iff_forall_not_mem.2 fun t ht => ?_
    have hfile := Table.mem_files.2
      ⟨.service, Table.service_mem_artifactKinds o.forms t, rfl⟩
    rw [h t ht] at hfile
    cases hfile
  · rintro rfl
    exact fun t ht => absurd ht List.not_mem_nil

/-- The files before a place are those of the tables before, and some of the place's own table. -/
theorem plannedFiles_eq_append_cons {o : EmitOptions} {tables : List Table}
    {before after : List GeneratedFile} {f : GeneratedFile}
    (h : plannedFiles o tables = before ++ f :: after) :
    ∃ earlier t later own, tables = earlier ++ t :: later ∧
      before = plannedFiles o earlier ++ own ∧ own ++ [f] <+: t.files o := by
  induction tables generalizing before with
  | nil => simp [plannedFiles] at h
  | cons t tables ih =>
    have hsplit : t.files o ++ plannedFiles o tables = before ++ f :: after := h
    have hplace : (∃ before', before = t.files o ++ before' ∧
        plannedFiles o tables = before' ++ f :: after) ∨ before ++ [f] <+: t.files o := by
      rcases List.append_eq_append_iff.1 hsplit with ⟨before', hb, hrest⟩ | ⟨own, hown, hrest⟩
      · exact .inl ⟨before', hb, hrest⟩
      · cases own with
        | nil => exact .inl ⟨[], by rw [hown, List.append_nil, List.append_nil], hrest.symm⟩
        | cons g own =>
          obtain ⟨rfl, -⟩ := List.cons.inj hrest
          exact .inr ⟨own, by rw [hown, List.append_assoc]; rfl⟩
    rcases hplace with ⟨before', rfl, hrest⟩ | hown
    · obtain ⟨earlier, t', later, own, rfl, rfl, hown⟩ := ih hrest
      exact ⟨t :: earlier, t', later, own, rfl, (List.append_assoc ..).symm, hown⟩
    · exact ⟨[], t, tables, before, rfl, rfl, hown⟩

/-- The files of tables with different service stems have different names, in whatever
directories. -/
theorem pairwise_namedApart_plannedFiles {tables : List Table} (o : EmitOptions)
    (h : tables.Pairwise fun s t => Name.serviceStem s.modelName ≠ Name.serviceStem t.modelName) :
    (plannedFiles o tables).Pairwise fun f g => f.path.NamedApart g.path := by
  rw [plannedFiles, List.pairwise_flatMap]
  refine ⟨fun t _ => Table.pairwise_namedApart_files o t, h.imp ?_⟩
  intro s t hne f hf g hg
  exact Table.namedApart_of_serviceStem_ne hf hg hne

/-- The files of tables are on different paths when the tables have different service stems. -/
theorem pairwise_plannedFiles_iff {o : EmitOptions} {tables : List Table} :
    (plannedFiles o tables).Pairwise GeneratedFile.Apart ↔
      tables.Pairwise fun s t => Name.serviceStem s.modelName ≠ Name.serviceStem t.modelName := by
  constructor
  · intro h
    rw [plannedFiles, List.pairwise_flatMap] at h
    refine h.2.imp ?_
    intro s t hapart heq
    obtain ⟨f, hf, g, hg, hsame⟩ := (Table.exists_same_iff o s t).2 heq
    exact hapart f hf g hg hsame
  · intro h
    exact (pairwise_namedApart_plannedFiles o h).imp Path.NamedApart.not_same

/-! ### Clashes -/

/-- Two tables, the first before the second, whose model names are the same in small letters. -/
def Clash (tables : List Table) (i j : Nat) : Prop :=
  i < j ∧ ∃ s t, tables[i]? = some s ∧ tables[j]? = some t ∧
    Text.lowercase s.modelName.toList = Text.lowercase t.modelName.toList

/-- The table at a position has a file on a path. -/
def Claims (o : EmitOptions) (tables : List Table) (i : Nat) (p : Path) : Prop :=
  ∃ t, tables[i]? = some t ∧ ∃ f ∈ t.files o, f.path.same p = true

/-- A collision is that of the tables at two positions, and of no earlier ones. -/
structure Collision.IsFirst (c : Collision) (o : EmitOptions) (tables : List Table) (i j : Nat) :
    Prop where
  /-- The tables clash. -/
  clash : Clash tables i j
  /-- No clash is complete before the second table. -/
  least : ∀ i' j', Clash tables i' j' → j ≤ j'
  /-- The first model is that of the first table. -/
  first_eq : tables[i]?.map Table.modelName = some c.first
  /-- The second model is that of the second table. -/
  second_eq : tables[j]?.map Table.modelName = some c.second
  /-- The path is one of the second table's. -/
  second_claims : Claims o tables j c.path
  /-- Of the tables before it, the first has a file there, and no other. -/
  claims_iff : ∀ k < j, Claims o tables k c.path ↔ k = i

theorem clash_iff {tables : List Table} {i j : Nat} :
    Clash tables i j ↔ i < j ∧ ∃ s t, tables[i]? = some s ∧ tables[j]? = some t ∧
      Name.serviceStem s.modelName = Name.serviceStem t.modelName := by
  unfold Clash Name.serviceStem
  simp only [String.ofList_inj]

/-- Tables without clashes have different service stems. -/
theorem pairwise_serviceStem_iff {tables : List Table} :
    tables.Pairwise (fun s t => Name.serviceStem s.modelName ≠ Name.serviceStem t.modelName) ↔
      ∀ i j, ¬ Clash tables i j := by
  rw [List.pairwise_iff_getElem]
  constructor
  · intro h i j hclash
    obtain ⟨hlt, s, t, hs, ht, heq⟩ := clash_iff.1 hclash
    obtain ⟨hi, rfl⟩ := List.getElem?_eq_some_iff.1 hs
    obtain ⟨hj, rfl⟩ := List.getElem?_eq_some_iff.1 ht
    exact h i j hi hj hlt heq
  · intro h i j hi hj hlt heq
    have hs := List.getElem?_eq_getElem hi
    have ht := List.getElem?_eq_getElem hj
    exact h i j (clash_iff.2 ⟨hlt, _, _, hs, ht, heq⟩)

/-- **The plan has an answer exactly when no tables clash.** -/
theorem plan_eq_ok_iff {o : EmitOptions} {tables : List Table} {files : List GeneratedFile} :
    plan o tables = .ok files ↔ files = plannedFiles o tables ∧ ∀ i j, ¬ Clash tables i j := by
  have hnone : collision? (plannedFiles o tables) = none ↔ ∀ i j, ¬ Clash tables i j := by
    rw [collision?, collisionFrom?_eq_none_iff, ← pairwise_serviceStem_iff,
      ← pairwise_plannedFiles_iff (o := o)]
    simp
  rw [plan]
  cases hcollision : collision? (plannedFiles o tables) with
  | none =>
    constructor
    · rintro ⟨⟩
      exact ⟨rfl, hnone.1 hcollision⟩
    · rintro ⟨rfl, -⟩
      rfl
  | some c =>
    constructor
    · rintro ⟨⟩
    · rintro ⟨-, hclash⟩
      rw [hnone.2 hclash] at hcollision
      cases hcollision

/-- A refused plan has a file on the path of one of an earlier table, and no such files before. -/
theorem exists_files_of_plan_eq_error {o : EmitOptions} {tables : List Table} {c : Collision}
    (h : plan o tables = .error c) :
    ∃ earlier t later s f g, tables = earlier ++ t :: later ∧ (∀ i j, ¬ Clash earlier i j) ∧
      s ∈ earlier ∧ g ∈ s.files o ∧ f ∈ t.files o ∧ g.path.same f.path = true ∧
      c = ⟨f.path, s.modelName, t.modelName⟩ := by
  have hcollision : collisionFrom? [] (plannedFiles o tables) = some c := by
    rw [plan, collision?] at h
    split at h
    · next c' hc' =>
      cases h
      exact hc'
    · cases h
  obtain ⟨before, f, after, g, hfiles, hbefore, -, hg, hsame, rfl⟩ :=
    collisionFrom?_eq_some hcollision
  obtain ⟨earlier, t, later, own, rfl, rfl, inner, hown⟩ := plannedFiles_eq_append_cons hfiles
  have hf : f ∈ t.files o := by
    rw [← hown]
    simp
  have hearlier := (List.pairwise_append.1 hbefore).1
  -- the earlier file is no other of the same table, so it is one of a table before
  have hapart : ∀ g ∈ own, g.Apart f := by
    have hnames := Table.pairwise_namedApart_files o t
    rw [← hown, List.append_assoc, List.pairwise_append] at hnames
    intro g hg
    exact (hnames.2.2 g hg f List.mem_cons_self).not_same
  rcases hg with hg | hg
  · cases hg
  rcases List.mem_append.1 hg with hg | hg
  · obtain ⟨s, hs, hgs⟩ := List.mem_flatMap.1 hg
    have hnone := pairwise_serviceStem_iff.1 (pairwise_plannedFiles_iff.1 hearlier)
    refine ⟨earlier, t, later, s, f, g, rfl, hnone, hs, hgs, hf, hsame, ?_⟩
    rw [Table.model_of_mem_files hgs, Table.model_of_mem_files hf]
  · exact absurd hsame (hapart g hg)

/-- **A plan is refused at the first table that has a file on an earlier path.** -/
theorem plan_eq_error {o : EmitOptions} {tables : List Table} {c : Collision}
    (h : plan o tables = .error c) : ∃ i j, c.IsFirst o tables i j := by
  obtain ⟨earlier, t, later, s, f, g, rfl, hnone, hs, hg, hf, hsame, rfl⟩ :=
    exists_files_of_plan_eq_error h
  obtain ⟨i, hi, rfl⟩ := List.getElem_of_mem hs
  have hbefore : ∀ k < earlier.length, (earlier ++ t :: later)[k]? = earlier[k]? := fun k hk =>
    List.getElem?_append_left hk
  have hfirst : (earlier ++ t :: later)[i]? = some earlier[i] := by
    rw [hbefore i hi, List.getElem?_eq_getElem hi]
  have hsecond : (earlier ++ t :: later)[earlier.length]? = some t := by
    rw [List.getElem?_append_right le_rfl, Nat.sub_self, List.getElem?_cons_zero]
  have hstem : Name.serviceStem earlier[i].modelName = Name.serviceStem t.modelName :=
    (Table.exists_same_iff o earlier[i] t).1 ⟨g, hg, f, hf, hsame⟩
  refine ⟨i, earlier.length, ?_⟩
  constructor
  case clash => exact clash_iff.2 ⟨hi, earlier[i], t, hfirst, hsecond, hstem⟩
  case least =>
    intro i' j' hclash
    by_contra hlt
    obtain ⟨hij, s', t', hs', ht', heq⟩ := hclash
    rw [hbefore _ (by omega)] at hs' ht'
    exact hnone i' j' ⟨hij, s', t', hs', ht', heq⟩
  case first_eq => rw [hfirst]; rfl
  case second_eq => rw [hsecond]; rfl
  case second_claims => exact ⟨t, hsecond, f, hf, Path.same_iff.2 rfl⟩
  case claims_iff =>
    intro k hk
    constructor
    · rintro ⟨u, hu, g', hg', hsame'⟩
      have hstem' : Name.serviceStem u.modelName = Name.serviceStem earlier[i].modelName := by
        rw [hstem]
        exact (Table.exists_same_iff o u t).1 ⟨g', hg', f, hf, hsame'⟩
      rw [hbefore k hk] at hu
      -- two tables before with the stem of the second would be a clash before it
      by_contra hne
      rcases Nat.lt_or_gt_of_ne hne with hlt | hlt
      · exact hnone k i (clash_iff.2 ⟨hlt, u, _, hu, List.getElem?_eq_getElem hi, hstem'⟩)
      · exact hnone i k (clash_iff.2 ⟨hlt, _, u, List.getElem?_eq_getElem hi, hu, hstem'.symm⟩)
    · rintro rfl
      exact ⟨earlier[k], hfirst, g, hg, hsame⟩

/-- **The files of a plan have different names**, in whatever directories. -/
theorem pairwise_namedApart_of_plan_eq_ok {o : EmitOptions} {tables : List Table}
    {files : List GeneratedFile} (h : plan o tables = .ok files) :
    files.Pairwise fun f g => f.path.NamedApart g.path := by
  obtain ⟨rfl, hnone⟩ := plan_eq_ok_iff.1 h
  exact pairwise_namedApart_plannedFiles o (pairwise_serviceStem_iff.2 hnone)

/-- The path of a planned file is one name below the directory of its kind. -/
theorem exists_path_eq_child {o : EmitOptions} {tables : List Table} {f : GeneratedFile}
    (h : f ∈ plannedFiles o tables) :
    ∃ name, Path.IsName name ∧ f.path = (o.layout.directory f.kind).child name ∧
      f.path.components = (o.layout.directory f.kind).components ++ [.name name] := by
  obtain ⟨t, -, hf⟩ := List.mem_flatMap.1 h
  obtain ⟨kind, -, rfl⟩ := Table.mem_files.1 hf
  exact ⟨kind.fileName t.modelName, kind.isName_fileName t, rfl,
    o.layout.components_pathFor kind t⟩

/-- **A plan is refused exactly for clashes**, whatever the layout, the forms and the tables: the
report is about the first table that clashes with an earlier one, and about that one.  A plan that
is not refused has its files on different paths, each one name below the directory of its kind. -/
theorem plan_refuses_clashes (o : EmitOptions) (tables : List Table) :
    ((∃ c, plan o tables = .error c) ↔ ∃ i j, Clash tables i j) ∧
    (∀ c, plan o tables = .error c → ∃ i j, c.IsFirst o tables i j) ∧
    ((∀ i j, ¬ Clash tables i j) → ∃ files, plan o tables = .ok files ∧
      files.Pairwise GeneratedFile.Apart ∧
      ∀ f ∈ files, ∃ name, Path.IsName name ∧
        f.path = (o.layout.directory f.kind).child name ∧
        f.path.components = (o.layout.directory f.kind).components ++ [.name name]) := by
  refine ⟨⟨?_, ?_⟩, ?_, ?_⟩
  · rintro ⟨c, hc⟩
    obtain ⟨i, j, hfirst⟩ := plan_eq_error hc
    exact ⟨i, j, hfirst.clash⟩
  · rintro ⟨i, j, hclash⟩
    cases hplan : plan o tables with
    | error c => exact ⟨c, rfl⟩
    | ok files => exact absurd hclash ((plan_eq_ok_iff.1 hplan).2 i j)
  · intro c hc
    exact plan_eq_error hc
  · intro hnone
    refine ⟨plannedFiles o tables, plan_eq_ok_iff.2 ⟨rfl, hnone⟩, ?_, ?_⟩
    · exact pairwise_plannedFiles_iff.2 (pairwise_serviceStem_iff.2 hnone)
    · exact fun f hf => exists_path_eq_child hf

/-- Tables of which the first and the last have model names with the same letters. -/
def sampleTables : List Table :=
  [{ name := "user_profile", tableName := "user_profile", dialect := .drizzle },
    { name := "post", tableName := "posts", dialect := .drizzle },
    { name := "userProfile", tableName := "profiles", dialect := .prisma }]

/-- Services go where row schemas go. -/
def sampleOptions : EmitOptions where
  imports := default
  layout := { schemas := ⟨"out"⟩, services := ⟨"out//schemas/"⟩ }
  forms := true

theorem plan_refuses_clashes_sample :
    (∃ c, plan sampleOptions sampleTables = .error c ∧
      ∃ i j, c.IsFirst sampleOptions sampleTables i j) ∧
    ∃ files, plan sampleOptions sampleTables.tail = .ok files ∧
      files.Pairwise GeneratedFile.Apart := by
  constructor
  · have hclash : Clash sampleTables 0 2 := by
      refine ⟨by decide, _, _, rfl, rfl, ?_⟩
      decide +kernel
    obtain ⟨c, hc⟩ := (plan_refuses_clashes sampleOptions sampleTables).1.2 ⟨0, 2, hclash⟩
    exact ⟨c, hc, (plan_refuses_clashes sampleOptions sampleTables).2.1 c hc⟩
  · have hstems : sampleTables.tail.Pairwise fun s t =>
        Name.serviceStem s.modelName ≠ Name.serviceStem t.modelName := by
      decide +kernel
    obtain ⟨files, hfiles, hapart, -⟩ :=
      (plan_refuses_clashes sampleOptions sampleTables.tail).2.2
        (pairwise_serviceStem_iff.1 hstems)
    exact ⟨files, hfiles, hapart⟩

end SchemaForge
