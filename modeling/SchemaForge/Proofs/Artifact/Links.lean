import SchemaForge.Proofs.Artifact.Collision
import SchemaForge.Proofs.Artifact.Shapes

/-!
# Artifacts that import from each other

A service and the names of a table's types import from the module of its row schemas.  The path of
that module is written in one place, the module it is imported from in another, and the names are
put together in every text that has them.  What is imported is there: the module is the file that
the plan has for the schemas, whatever the table is called, and its text exports every name that
the others take from it, in both ways to write it.

The texts are read line by line: what a text imports, exports or declares is what one of its lines
says.

## Main definitions

* `HasLine` — a text has a line.
* `ImportsFrom`, `Exports`, `DeclaresType` — what the lines of a module say.
* `TakesFrom` — a module imports names that another exports.

## Main results

* `takesFrom_serviceModule`, `takesFrom_typesModule` — what is imported is exported.
* `artifacts_link_up` — **the files of a plan import what the plan's files export.**
-/

namespace SchemaForge

/-! ### Lines of a text -/

/-- The text is one of lines, and has the line among them. -/
def HasLine (text line : String) : Prop :=
  ∃ front behind, text = ofLines (front ++ line :: behind)

theorem hasLine_ofLines {lines : List String} {line : String} (h : line ∈ lines) :
    HasLine (ofLines lines) line := by
  obtain ⟨front, behind, rfl⟩ := List.append_of_mem h
  exact ⟨front, behind, rfl⟩

/-- A line that imports names from a module. -/
def importLine (keyword : String) (names : List String) (module : String) : String :=
  keyword ++ " \x7b " ++ ", ".intercalate names ++ " \x7d from '" ++ module ++ "'"

/-- The text imports a name from a module, as a value or as a type. -/
def ImportsFrom (text name module : String) : Prop :=
  ∃ keyword ∈ ["import", "import type"], ∃ names, name ∈ names ∧
    HasLine text (importLine keyword names module)

/-- The text exports a name, of a value or of a type. -/
def Exports (text name : String) : Prop :=
  ∃ keyword ∈ ["const", "type"], ∃ value,
    HasLine text ("export " ++ keyword ++ " " ++ name ++ " = " ++ value)

/-- The text declares a name of a type, for its own use or for all. -/
def DeclaresType (text name type : String) : Prop :=
  ∃ lead ∈ ["", "export "], HasLine text (lead ++ "type " ++ name ++ " = " ++ type)

/-- A module imports names, and the other exports them. -/
def TakesFrom (importer exporter module : String) (names : List String) : Prop :=
  ∀ name ∈ names, ImportsFrom importer name module ∧ Exports exporter name

/-! ### What a module of row schemas exports -/

section

variable (o : ImportOptions) (t : Table)

theorem mem_rowLines_of_mem_rowTypeLines {t : Table} {line : String}
    (h : line ∈ rowTypeLines t.modelName) : line ∈ rowLines t :=
  List.mem_append_right _ h

/-- **The select schema is exported in both ways to write it.** -/
theorem exports_selectSchema : Exports (rowModule t) ("select" ++ t.modelName ++ "Schema") := by
  refine ⟨"const", by simp, "Schema.Struct(\x7b", hasLine_ofLines ?_⟩
  have hline (name : String) : "export " ++ "const" ++ " " ++ name ++ " = " ++
      "Schema.Struct(\x7b" = s!"export const {name} = Schema.Struct(\x7b" := by
    apply String.toList_inj.1
    simp [toString]
  rw [hline]
  cases hoverride : t.overridesArrays with
  | true =>
    rw [rowLines_of_overridesArrays hoverride]
    simp [overrideLines]
  | false =>
    rw [rowLines_of_not_overridesArrays hoverride]
    simp [structLines]

theorem exports_selectType : Exports (rowModule t) ("Select" ++ t.modelName) := by
  refine ⟨"type", by simp, s!"typeof select{t.modelName}Schema.Type", hasLine_ofLines ?_⟩
  apply mem_rowLines_of_mem_rowTypeLines
  apply List.mem_cons.2
  left
  apply String.toList_inj.1
  simp [toString]

theorem exports_insertType : Exports (rowModule t) ("Insert" ++ t.modelName) := by
  refine ⟨"type", by simp, s!"typeof insert{t.modelName}Schema.Type", hasLine_ofLines ?_⟩
  apply mem_rowLines_of_mem_rowTypeLines
  apply List.mem_cons_of_mem
  apply List.mem_singleton.2
  apply String.toList_inj.1
  simp [toString]

/-! ### What the others import -/

/-- Both services import the same from the module of row schemas. -/
theorem mem_serviceLines_imports :
    importLine "import type" ["Insert" ++ t.modelName] (o.schemaModule t) ∈ serviceLines o t ∧
      importLine "import" ["select" ++ t.modelName ++ "Schema"] (o.schemaModule t) ∈
        serviceLines o t := by
  have htype : importLine "import type" ["Insert" ++ t.modelName] (o.schemaModule t) =
      s!"import type \x7b Insert{t.modelName} \x7d from '{o.schemaModule t}'" := by
    apply String.toList_inj.1
    simp [importLine, toString]
  have hvalue : importLine "import" ["select" ++ t.modelName ++ "Schema"] (o.schemaModule t) =
      s!"import \x7b select{t.modelName}Schema \x7d from '{o.schemaModule t}'" := by
    apply String.toList_inj.1
    simp [importLine, toString]
  rw [htype, hvalue]
  unfold serviceLines
  cases t.dialect with
  | drizzle => constructor <;> simp [builderImportLines, ServiceNames.ofTable]
  | prisma => constructor <;> simp [clientImportLines, ServiceNames.ofTable]

theorem mem_serviceLines_id :
    s!"type {t.modelName}Id = {t.keyType.typeName}" ∈ serviceLines o t := by
  have herror : s!"type {t.modelName}Id = {t.keyType.typeName}" ∈
      errorLines (ServiceNames.ofTable o t) := by
    simp [errorLines, ServiceNames.ofTable]
  unfold serviceLines
  cases t.dialect with
  | drizzle => simp [herror]
  | prisma => simp [herror]

/-- **A service imports what the module of row schemas exports.** -/
theorem takesFrom_serviceModule :
    TakesFrom (serviceModule o t) (rowModule t) (o.schemaModule t)
      ["Insert" ++ t.modelName, "select" ++ t.modelName ++ "Schema"] := by
  obtain ⟨htype, hvalue⟩ := mem_serviceLines_imports o t
  intro name hname
  rcases List.mem_pair.1 hname with rfl | rfl
  · refine ⟨⟨"import type", by simp, _, List.mem_singleton.2 rfl, ?_⟩, exports_insertType t⟩
    exact hasLine_ofLines htype
  · refine ⟨⟨"import", by simp, _, List.mem_singleton.2 rfl, ?_⟩, exports_selectSchema t⟩
    exact hasLine_ofLines hvalue

/-- **The names of a table's types import what the module of row schemas exports.** -/
theorem takesFrom_typesModule :
    TakesFrom (typesModule o t) (rowModule t) (o.schemaModule t)
      ["Insert" ++ t.modelName, "Select" ++ t.modelName] := by
  have hline : importLine "import type" ["Insert" ++ t.modelName, "Select" ++ t.modelName]
      (o.schemaModule t) ∈ typesLines o t := by
    apply List.mem_cons.2
    left
    apply String.toList_inj.1
    simp [importLine, toString]
  intro name hname
  refine ⟨⟨"import type", by simp, _, hname, hasLine_ofLines hline⟩, ?_⟩
  rcases List.mem_pair.1 hname with rfl | rfl
  · exact exports_insertType t
  · exact exports_selectType t

theorem declaresType_serviceModule :
    DeclaresType (serviceModule o t) (t.modelName ++ "Id") t.keyType.typeName := by
  have hline : "" ++ "type " ++ (t.modelName ++ "Id") ++ " = " ++ t.keyType.typeName =
      s!"type {t.modelName}Id = {t.keyType.typeName}" := by
    apply String.toList_inj.1
    simp [toString]
  refine ⟨"", by simp, ?_⟩
  rw [hline]
  exact hasLine_ofLines (mem_serviceLines_id o t)

theorem declaresType_typesModule :
    DeclaresType (typesModule o t) (t.modelName ++ "Id") t.keyType.typeName := by
  have hline : "export " ++ "type " ++ (t.modelName ++ "Id") ++ " = " ++ t.keyType.typeName =
      s!"export type {t.modelName}Id = {t.keyType.typeName}" := by
    apply String.toList_inj.1
    simp [toString]
  refine ⟨"export ", by simp, ?_⟩
  rw [hline]
  apply hasLine_ofLines
  simp [typesLines]

end

/-! ### The files of a plan -/

/-- A table gives its row schemas and its service, and then neither of them again. -/
theorem Table.artifactKinds_eq (forms : Bool) (t : Table) :
    ∃ more, t.artifactKinds forms = .schema :: .service :: more ∧
      (t.dialect = .drizzle → ArtifactKind.types ∈ more) := by
  unfold artifactKinds
  cases t.dialect with
  | prisma => exact ⟨[], rfl, by simp⟩
  | drizzle =>
    by_cases hform : (forms && !t.insertColumns.isEmpty) = true
    · exact ⟨[.types, .form], by simp [hform], by simp⟩
    · exact ⟨[.types], by simp [hform], by simp⟩

/-- Tables at different places of a list without clashes have different service stems. -/
theorem serviceStem_ne_of_not_clash {tables : List Table} {s t : Table} {i j : Nat}
    (h : ∀ i j, ¬ Clash tables i j) (hs : tables[i]? = some s) (ht : tables[j]? = some t)
    (hne : i ≠ j) : Name.serviceStem s.modelName ≠ Name.serviceStem t.modelName := by
  intro heq
  rcases Nat.lt_or_gt_of_ne hne with hlt | hlt
  · exact h i j (clash_iff.2 ⟨hlt, s, t, hs, ht, heq⟩)
  · exact h j i (clash_iff.2 ⟨hlt, t, s, ht, hs, heq.symm⟩)

/-- **The files of a plan import what the plan's files export.**  A table has a module of row
schemas and a service, and a declared one the names of its types.  What the service and the names
take from elsewhere in the plan comes from the path of that module without its ending, and is
exported there; no file of another table is on that path; and both call the type of the keys the
same. -/
theorem artifacts_link_up {o : EmitOptions} {tables : List Table} {files : List GeneratedFile}
    (h : plan o tables = .ok files) {i : Nat} {t : Table} (ht : tables[i]? = some t) :
    ∃ schema service more stem idType,
      t.files o = schema :: service :: more ∧ t.files o ⊆ files ∧
      schema.kind = .schema ∧ service.kind = .service ∧
      (t.dialect = .drizzle → ∃ types ∈ more, types.kind = .types) ∧
      schema.path.name? = some (stem ++ ".ts") ∧
      TakesFrom service.content schema.content (o.imports.importBase ++ "/schemas/" ++ stem)
        ["Insert" ++ t.modelName, "select" ++ t.modelName ++ "Schema"] ∧
      DeclaresType service.content (t.modelName ++ "Id") idType ∧
      (∀ types ∈ more, types.kind = .types →
        TakesFrom types.content schema.content (o.imports.importBase ++ "/schemas/" ++ stem)
          ["Insert" ++ t.modelName, "Select" ++ t.modelName] ∧
        DeclaresType types.content (t.modelName ++ "Id") idType) ∧
      ∀ j t', tables[j]? = some t' → j ≠ i → ∀ f ∈ t'.files o, f.Apart schema := by
  obtain ⟨rfl, hnone⟩ := plan_eq_ok_iff.1 h
  obtain ⟨kinds, hkinds, htypes⟩ := t.artifactKinds_eq o.forms
  let file : ArtifactKind → GeneratedFile := fun kind =>
    ⟨o.layout.pathFor kind t.modelName, kind.content o.imports t, kind, t.modelName⟩
  have hfiles : t.files o = file .schema :: file .service :: kinds.map file := by
    show (t.artifactKinds o.forms).map file = _
    rw [hkinds, List.map_cons, List.map_cons]
  have hschema : file .schema ∈ t.files o := by
    rw [hfiles]
    exact List.mem_cons_self
  have hmodule : o.imports.schemaModule t =
      o.imports.importBase ++ "/schemas/" ++ (Name.kebab t.modelName ++ "-schemas") :=
    String.append_assoc
  refine ⟨file .schema, file .service, kinds.map file, Name.kebab t.modelName ++ "-schemas",
    t.keyType.typeName, hfiles, ?_, rfl, rfl, ?_, ?_, ?_, declaresType_serviceModule _ t, ?_, ?_⟩
  · intro f hf
    exact List.mem_flatMap.2 ⟨t, List.mem_of_getElem? ht, hf⟩
  · intro hdialect
    exact ⟨file .types, List.mem_map_of_mem (htypes hdialect), rfl⟩
  · have hending : "-schemas.ts" = "-schemas" ++ ".ts" := by decide
    rw [Table.name?_of_mem_files hschema, String.append_assoc, ← hending]
    rfl
  · rw [← hmodule]
    exact takesFrom_serviceModule o.imports t
  · intro types hmem hkind
    obtain ⟨kind, -, rfl⟩ := List.mem_map.1 hmem
    obtain rfl : kind = .types := hkind
    rw [← hmodule]
    exact ⟨takesFrom_typesModule o.imports t, declaresType_typesModule o.imports t⟩
  · intro j t' ht' hne f hf
    have hstem := serviceStem_ne_of_not_clash hnone ht' ht hne
    exact (Table.namedApart_of_serviceStem_ne hf hschema hstem).not_same

/-- A declared table with array columns, and a model. -/
def sampleLinked : List Table :=
  [sampleRows, { name := "BlogPost", tableName := "posts", dialect := .prisma }]

theorem artifacts_link_up_sample :
    plan sampleOptions sampleLinked = .ok (plannedFiles sampleOptions sampleLinked) ∧
      sampleLinked[0]? = some sampleRows ∧
      ∃ schema service more stem idType,
        sampleRows.files sampleOptions = schema :: service :: more ∧
        (∃ types ∈ more, types.kind = .types) ∧
        schema.path.name? = some (stem ++ ".ts") ∧
        DeclaresType service.content (sampleRows.modelName ++ "Id") idType := by
  have hstems : sampleLinked.Pairwise fun s t =>
      Name.serviceStem s.modelName ≠ Name.serviceStem t.modelName := by
    decide +kernel
  have hplan : plan sampleOptions sampleLinked = .ok (plannedFiles sampleOptions sampleLinked) :=
    plan_eq_ok_iff.2 ⟨rfl, pairwise_serviceStem_iff.1 hstems⟩
  have hfirst : sampleLinked[0]? = some sampleRows := rfl
  obtain ⟨schema, service, more, stem, idType, hfiles, -, -, -, htypes, hname, -, hid, -⟩ :=
    artifacts_link_up hplan hfirst
  exact ⟨hplan, hfirst, schema, service, more, stem, idType, hfiles, htypes rfl, hname, hid⟩

end SchemaForge
