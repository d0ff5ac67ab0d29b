import SchemaForge.Proofs.Artifact.Links
import SchemaForge.Proofs.Artifact.StringLiteral
import SchemaForge.Proofs.Declaration.Headers
import SchemaForge.Proofs.Declaration.Readings
import SchemaForge.Proofs.Schema.RoundTrip
import SchemaForge.Proofs.Schema.Tables

/-!
# What generated modules quote

Generated modules put two things from a schema between single quotes, as they are: the name of the
table in the database, in the message of a broken unique constraint, and the values of
enumerations.  Values of enumerations are names, so they stand for themselves.  Names of tables may
be any text, and stand for themselves only when they are plain.

## Main definitions

* `conflictMessage` — the message of a broken unique constraint.
* `StartsAll`, `CallsLiterals` — literals with commas between them, as arguments.

## Main results

* `starts_conflictLiteral_iff` — the messages that are what they should be.
* `isPlain_valueNames` — values of enumerations are plain.
* `plain_names_are_quoted_whole` — **what generated modules quote.**
* `map_name_ends_message` — a name with a quote in it ends the message.
-/

namespace SchemaForge

open StringLiteral

/-! ### Messages -/

/-- The message of a broken unique constraint. -/
def conflictMessage (tableName : String) : String :=
  "Unique constraint violated on " ++ tableName

/-- The line of a service that makes the error of a broken unique constraint. -/
def conflictErrorLine (tableName : String) : String :=
  "    ? new ConflictError(\x7b message: " ++ conflictLiteral tableName ++ ", cause: error \x7d)"

/-- A text in single quotes. -/
theorem toList_quoted (text : String) :
    ("'" ++ text ++ "'").toList = '\'' :: (text.toList ++ ['\'']) := by
  simp

theorem toList_conflictLiteral (tableName : String) :
    (conflictLiteral tableName).toList =
      '\'' :: ((conflictMessage tableName).toList ++ ['\'']) := by
  -- the template has the first quote and the words behind it in one piece
  have hlead : "'Unique constraint violated on " = "'" ++ "Unique constraint violated on " := by
    decide +kernel
  have hquoted : conflictLiteral tableName = "'" ++ conflictMessage tableName ++ "'" := by
    unfold conflictLiteral conflictMessage
    rw [hlead]
    simp only [String.append_assoc]
  exact (congrArg String.toList hquoted).trans (toList_quoted _)

theorem isPlain_conflictMessage_iff {tableName : String} :
    IsPlain (conflictMessage tableName).toList ↔ IsPlain tableName.toList := by
  have hlead : IsPlain "Unique constraint violated on ".toList := by decide +kernel
  unfold IsPlain conflictMessage at *
  simp only [String.toList_append, List.forall_mem_append]
  exact and_iff_right hlead

/-- **The message is what it should be when the name of the table is plain**, and only then. -/
theorem starts_conflictLiteral_iff {tableName : String} (rest : List Char) :
    Starts (units (conflictMessage tableName).toList)
        ((conflictLiteral tableName).toList ++ rest) rest ↔
      IsPlain tableName.toList := by
  rw [toList_conflictLiteral, ← isPlain_conflictMessage_iff, List.cons_append, List.append_assoc]
  exact starts_units_iff

/-- Both services make the error on one line. -/
theorem hasLine_conflictErrorLine (o : ImportOptions) {t : Table}
    (h : t.hasUniqueColumns = true) :
    HasLine (serviceModule o t) (conflictErrorLine t.tableName) := by
  apply hasLine_ofLines
  have hline : conflictErrorLine t.tableName =
      s!"    ? new ConflictError(\x7b message: {conflictLiteral t.tableName}, cause: error \x7d)" :=
    rfl
  have hmem : conflictErrorLine t.tableName ∈ errorLines (ServiceNames.ofTable o t) := by
    rw [hline]
    simp [errorLines, writeErrorLines, ServiceNames.ofTable, h]
  unfold serviceLines
  cases t.dialect with
  | drizzle => simp [hmem]
  | prisma => simp [hmem]

/-! ### Values of enumerations -/

/-- A text starts with literals of the given texts, with a comma and a space between any two, and
`rest` follows. -/
def StartsAll : List String → List Char → List Char → Prop
  | [], text, rest => text = rest
  | [value], text, rest => Starts (units value.toList) text rest
  | value :: values, text, rest =>
    ∃ more, Starts (units value.toList) text (',' :: ' ' :: more) ∧ StartsAll values more rest

/-- Code calls the schema of literals with the given texts, one literal for each. -/
def CallsLiterals (values : List String) (code : String) : Prop :=
  ∃ front arguments behind,
    code.toList = front ++ ("Schema.Literal(".toList ++ (arguments ++ ')' :: behind)) ∧
      ∀ rest, StartsAll values (arguments ++ rest) rest

section

variable {values : List String}

theorem starts_literalCode {value : String} (h : IsPlain value.toList) (rest : List Char) :
    Starts (units value.toList) ((literalCode value).toList ++ rest) rest := by
  rw [literalCode, toList_quoted, List.cons_append, List.append_assoc]
  exact starts_units_iff.2 h

theorem startsAll_intercalate (h : ∀ value ∈ values, IsPlain value.toList) (rest : List Char) :
    StartsAll values ((", ".intercalate (values.map literalCode)).toList ++ rest) rest := by
  induction values with
  | nil => exact rfl
  | cons value values ih =>
    obtain ⟨hvalue, hvalues⟩ := List.forall_mem_cons.1 h
    -- only a value with another behind it has a comma
    cases values with
    | nil =>
      rw [List.map_singleton, String.intercalate_singleton]
      exact starts_literalCode hvalue rest
    | cons next values =>
      refine ⟨_, ?_, ih hvalues⟩
      have hcomma : ", ".toList = [',', ' '] := rfl
      rw [List.map_cons, List.map_cons, String.intercalate_cons_cons, String.toList_append,
        String.toList_append, hcomma, List.append_assoc, List.append_assoc]
      exact starts_literalCode hvalue _

/-- Plain texts are called as they are. -/
theorem callsLiterals_code (leaf : LeafCode) (h : ∀ value ∈ values, IsPlain value.toList) :
    CallsLiterals values ((TypeExpr.literals values).code leaf) := by
  refine ⟨[], (", ".intercalate (values.map literalCode)).toList, [], ?_, startsAll_intercalate h⟩
  unfold TypeExpr.code
  simp only [String.toList_append, List.append_assoc, List.nil_append]
  rfl

/-- What is called inside of an expression is called by the whole. -/
theorem CallsLiterals.of_isInfix {code whole : String} (h : CallsLiterals values code)
    (hinside : code.toList <:+: whole.toList) : CallsLiterals values whole := by
  obtain ⟨front, arguments, behind, hcode, hstarts⟩ := h
  obtain ⟨left, right, hwhole⟩ := hinside
  refine ⟨left ++ front, arguments, behind ++ right, ?_, hstarts⟩
  rw [← hwhole, hcode]
  simp only [List.append_assoc, List.cons_append]

end

/-! ### Rows -/

section

variable (leaf : LeafCode) (e : TypeExpr) (c : Column)

theorem toList_isInfix_append (front code behind : String) :
    code.toList <:+: (front ++ code ++ behind).toList := by
  simp only [String.toList_append]
  exact List.infix_append _ _ _

theorem code_isInfix_array : (e.code leaf).toList <:+: ((TypeExpr.array e).code leaf).toList :=
  toList_isInfix_append "Schema.Array(" (e.code leaf) ")"

theorem code_isInfix_optional (nullable : Bool) :
    (e.code leaf).toList <:+: ((TypeExpr.optional e nullable).code leaf).toList := by
  cases nullable with
  | true => exact toList_isInfix_append "Schema.optional(Schema.NullOr(" (e.code leaf) "))"
  | false => exact toList_isInfix_append "Schema.optional(" (e.code leaf) ")"

/-- However a column is wrapped, the code of its values is in its code. -/
theorem elementCode_isInfix (d : Dialect) :
    ((c.elementType d).code leaf).toList <:+: ((c.selectType d).code leaf).toList ∧
      ((c.elementType d).code leaf).toList <:+: ((c.insertType d).code leaf).toList := by
  have hbase : ((c.elementType d).code leaf).toList <:+: ((c.baseType d).code leaf).toList := by
    unfold Column.baseType
    split
    · exact code_isInfix_array leaf _
    · exact List.infix_rfl
  unfold Column.selectType Column.insertType Column.wrapSelect Column.wrapInsert
  constructor
  · split
    · exact hbase.trans (code_isInfix_optional leaf _ _)
    · exact hbase
  · split
    · exact hbase.trans (code_isInfix_optional leaf _ _)
    · exact hbase

/-- **Plain values are called as they are**, in both shapes of a row. -/
theorem callsLiterals_rowCode {c : Column} {values : List String} (d : Dialect)
    (hvalues : c.variants = some values) (hplain : ∀ value ∈ values, IsPlain value.toList) :
    CallsLiterals values (c.selectType d).rowCode ∧
      CallsLiterals values (c.insertType d).rowCode := by
  have helement : c.elementType d = .literals values := by
    unfold Column.elementType
    rw [hvalues]
  have hcode := callsLiterals_code .row hplain
  rw [← helement] at hcode
  obtain ⟨hselect, hinsert⟩ := elementCode_isInfix .row c d
  exact ⟨hcode.of_isInfix hselect, hcode.of_isInfix hinsert⟩

theorem mem_structLines {f : FieldCode} {fields : List FieldCode} (hf : f ∈ fields)
    (name : String) : f.line ∈ structLines name fields := by
  unfold structLines
  apply List.mem_append_left
  apply List.mem_append_right
  exact List.mem_map_of_mem hf

/-- A model has every column on a line of its row schemas, and on a second one unless the database
makes the column up. -/
theorem hasLine_columns {t : Table} (hdialect : t.dialect = .prisma) {c : Column}
    (hc : c ∈ t.columns) :
    HasLine (rowModule t) (FieldCode.line ⟨c.name, (c.selectType t.dialect).rowCode⟩) ∧
      (c ∈ t.insertColumns →
        HasLine (rowModule t) (FieldCode.line ⟨c.name, (c.insertType t.dialect).rowCode⟩)) := by
  have hplain : t.overridesArrays = false := by
    unfold Table.overridesArrays
    rw [hdialect]
    rfl
  have hmem {name : String} {fields : List FieldCode} {f : FieldCode} (hf : f ∈ fields)
      (hlines : structLines name fields ∈
        [ structLines ("select" ++ t.modelName ++ "Schema") (selectShape t),
          structLines ("insert" ++ t.modelName ++ "Schema") (insertShape t) ]) :
      HasLine (rowModule t) f.line := by
    apply hasLine_ofLines
    rw [rowLines_of_not_overridesArrays hplain]
    refine List.mem_flatten.2 ⟨_, ?_, mem_structLines hf name⟩
    exact List.mem_cons_of_mem _ (List.mem_append_left [rowTypeLines t.modelName] hlines)
  constructor
  · exact hmem (List.mem_map.2 ⟨c, hc, rfl⟩) (List.mem_cons_self ..)
  · intro hinsert
    exact hmem (List.mem_map.2 ⟨c, hinsert, rfl⟩) (List.mem_cons_of_mem _ (List.mem_cons_self ..))

end

/-! ### Names in documents -/

namespace Schema

section

variable {source : String} {d : Document}

theorem isPlain_of_lexical {name : String} (h : (TokenKind.ident name).Lexical) :
    IsPlain name.toList := by
  have hspecial : special.all (fun c => !isNameChar c) = true := by decide
  obtain ⟨c, cs, htext, hc, hcs⟩ := h
  intro e he hmem
  have hname : isNameChar e = true := by
    rw [htext] at he
    rcases List.mem_cons.1 he with rfl | he
    · exact isNameChar_of_startsName hc
    · exact hcs e he
  have hnot := List.all_eq_true.1 hspecial e hmem
  simp [hname] at hnot

/-- **Values of enumerations are plain.** -/
theorem isPlain_valueNames (h : Document.ofSource source = .ok d) {e : Enumeration}
    (he : e ∈ d.enumerations) : ∀ value ∈ e.valueNames, IsPlain value.toList := by
  obtain ⟨b, hb, henum⟩ := List.mem_filterMap.1 he
  have hspelled := spelled_of_ofSource h b hb
  intro value hvalue
  obtain ⟨v, hv, rfl⟩ := List.mem_map.1 hvalue
  obtain ⟨item, hitem, hentry⟩ := List.mem_filterMap.1 hv
  cases b with
  | enumeration e' =>
    obtain rfl := Option.some.inj henum
    obtain ⟨ts, hblock, hts⟩ := hspelled
    cases hblock with
    | enumeration name hbody =>
      cases item with
      | entry v' =>
        obtain rfl := Option.some.inj hentry
        obtain ⟨us, ⟨hus⟩, hlexical⟩ :=
          hbody.itemSpelled (fun t ht => hts t (by simp [ht])) _ hitem
        cases hus with
        | intro name comment _ => exact isPlain_of_lexical (hlexical _ (by simp))
      | _ => cases hentry
  | _ => cases henum

theorem isPlain_modelName (h : Document.ofSource source = .ok d) {m : Model}
    (hm : m ∈ d.models) : IsPlain m.name.toList := by
  obtain ⟨b, hb, hmodel⟩ := List.mem_filterMap.1 hm
  have hspelled := spelled_of_ofSource h b hb
  cases b with
  | model kind m' =>
    cases kind with
    | model =>
      obtain rfl := Option.some.inj hmodel
      obtain ⟨ts, hblock, hts⟩ := hspelled
      cases hblock with
      | model kind name hbody => exact isPlain_of_lexical (hts (.ident name) (by simp))
    | _ => cases hmodel
  | _ => cases hmodel

/-- The values that a column of a document is limited to are those of an enumeration. -/
theorem exists_enumeration_of_variants {t : Table} (ht : t ∈ d.tables) {c : Column}
    (hc : c ∈ t.columns) {values : List String} (hvalues : c.variants = some values) :
    ∃ e ∈ d.enumerations, e.valueNames = values := by
  obtain ⟨m, -, rfl⟩ := List.mem_map.1 ht
  obtain ⟨f, -, hf⟩ := List.mem_filterMap.1 hc
  obtain ⟨-, hvariants, -⟩ := column?_eq_some hf
  rw [hvalues, Scope.values?] at hvariants
  obtain ⟨i, hi, -⟩ := lookup_reverse_eq_some_iff.1 hvariants.symm
  obtain ⟨e, he, hpair⟩ := List.mem_map.1 (List.mem_of_getElem? hi)
  exact ⟨e, he, (Prod.mk.inj hpair).2⟩

end

end Schema

/-! ### Names in declarations -/

namespace Declaration

section

variable {text : List Char}

theorem forall_mem_of_run? {belongs : Char → Bool} {found rest : List Char}
    (h : run? belongs text = some (found, rest)) : ∀ c ∈ found, belongs c = true := by
  rw [run?] at h
  split at h
  · cases h
  · cases h
    intro c hc
    exact List.all_eq_true.1 (List.all_takeWhile (p := belongs)) c hc

/-- No quote stands in the name of a declared table, of whatever kind the quotes around it are. -/
theorem tableName_of_header? {header : Header} (h : header? text = some header) :
    '\'' ∉ header.tableName := by
  simp only [header?, Option.bind_eq_bind, Option.bind_eq_some_iff, Option.pure_def,
    Option.some.injEq] at h
  obtain ⟨_, -, _, -, _, -, _, -, ⟨_, _⟩, -, _, -, _, -, _, -, _, -, ⟨name, _⟩, hname, _, -, _, -,
    ⟨_, _⟩, -, _, -, _, -, _, -, rfl⟩ := h
  intro hmem
  -- the name is a run of characters that are no quotes
  exact absurd (forall_mem_of_run? hname _ hmem) (by decide)

theorem variants_of_columnOf? {param : List Char} {c : Column}
    (h : columnOf? param text = some c) : c.variants = none := by
  simp only [columnOf?, Option.bind_eq_bind, Option.bind_eq_some_iff, Option.pure_def,
    Option.some.injEq] at h
  obtain ⟨_, -, _, -, ⟨_, _⟩, -, rfl⟩ := h
  rfl

/-- Columns that the database numbers are as they were otherwise. -/
theorem exists_column_of_withImplicitDefaults {t : Table} {c : Column}
    (hc : c ∈ t.withImplicitDefaults.columns) : ∃ c' ∈ t.columns, c.variants = c'.variants := by
  obtain ⟨c', hc', rfl⟩ := List.mem_map.1 hc
  refine ⟨c', hc', ?_⟩
  split <;> rfl

/-- Tables come from headers, and their columns from entries. -/
theorem exists_match_of_table {resume : Nat} {ms : List Match} {r : Reading}
    (hr : r ∈ readingsFrom resume ms) {t : Table} (ht : r.table = some t) :
    ∃ m ∈ ms, ∃ texts : List (List Char),
      t = m.tableOf (texts.filterMap (columnOf? m.header.param)) := by
  obtain ⟨m, hm, rfl | ⟨inside, behind, -, rfl⟩⟩ := exists_match_of_mem_readingsFrom hr
  · cases ht
  · exact ⟨m, hm, _, (Option.some.inj ht).symm⟩

/-- **A declared table has no quote in its name, and no column of listed values.** -/
theorem unquoted_of_ofSource {mode : Mode} {source : String} {declared : DeclaredTables}
    (h : DeclaredTables.ofSource mode source = .ok declared) {t : Table}
    (ht : t ∈ declared.tables) :
    '\'' ∉ t.tableName.toList ∧ ∀ c ∈ t.columns, c.variants = none := by
  obtain rfl := DeclaredTables.eq_ofText_of_ofSource h
  obtain ⟨r, hr, htable⟩ := List.mem_filterMap.1 ht
  obtain ⟨m, hm, texts, rfl⟩ := exists_match_of_table hr htable
  constructor
  · show '\'' ∉ (String.ofList m.header.tableName).toList
    rw [String.toList_ofList]
    exact tableName_of_header? (header?_of_mem_headerMatches hm)
  · intro c hc
    obtain ⟨c', hc', hvariants⟩ := exists_column_of_withImplicitDefaults hc
    obtain ⟨entry, -, hcolumn⟩ := List.mem_filterMap.1 hc'
    rw [hvariants]
    exact variants_of_columnOf? hcolumn

end

end Declaration

/-! ### What is quoted -/

/-- **What generated modules quote.**  The message of a broken unique constraint stands on a line of
the service, and is a literal of what it should be when the name of the table is plain, and only
then.  For a model, the name it has in the schema is plain, and so are the values of enumerations:
every schema of them, on a line of the row schemas, has one literal for each value, of just that
value.  A declared table has no quote in its name, and no column of listed values. -/
theorem plain_names_are_quoted_whole (o : ImportOptions) :
    (∀ t : Table, t.hasUniqueColumns = true →
      HasLine (serviceModule o t) (conflictErrorLine t.tableName) ∧
        ∀ rest, Starts (units (conflictMessage t.tableName).toList)
            ((conflictLiteral t.tableName).toList ++ rest) rest ↔
          IsPlain t.tableName.toList) ∧
    (∀ source d, Schema.Document.ofSource source = .ok d → ∀ t ∈ d.tables,
      IsPlain t.name.toList ∧
        ∀ c ∈ t.columns, ∀ values, c.variants = some values →
          HasLine (rowModule t) (FieldCode.line ⟨c.name, (c.selectType t.dialect).rowCode⟩) ∧
          CallsLiterals values (c.selectType t.dialect).rowCode ∧
          (c ∈ t.insertColumns →
            HasLine (rowModule t) (FieldCode.line ⟨c.name, (c.insertType t.dialect).rowCode⟩) ∧
            CallsLiterals values (c.insertType t.dialect).rowCode)) ∧
    ∀ mode source declared, Declaration.DeclaredTables.ofSource mode source = .ok declared →
      ∀ t ∈ declared.tables,
        '\'' ∉ t.tableName.toList ∧ ∀ c ∈ t.columns, c.variants = none := by
  refine ⟨?_, ?_, ?_⟩
  · intro t ht
    exact ⟨hasLine_conflictErrorLine o ht, starts_conflictLiteral_iff⟩
  · intro source d h t ht
    obtain ⟨m, hm, rfl⟩ := List.mem_map.1 ht
    refine ⟨Schema.isPlain_modelName h hm, ?_⟩
    intro c hc values hvalues
    obtain ⟨e, he, rfl⟩ := Schema.exists_enumeration_of_variants ht hc hvalues
    have hplain := Schema.isPlain_valueNames h he
    obtain ⟨hselect, hinsert⟩ := hasLine_columns rfl hc
    obtain ⟨hselects, hinserts⟩ := callsLiterals_rowCode .prisma hvalues hplain
    exact ⟨hselect, hselects, fun hmem => ⟨hinsert hmem, hinserts⟩⟩
  · intro mode source declared h t ht
    exact Declaration.unquoted_of_ofSource h ht

/-- A model with a list of roles, and a name of its own in the database. -/
def quotedSource : String :=
  "enum Role \x7b\n  ADMIN\n  USER\n\x7d\nmodel User \x7b\n  email String @unique\n" ++
    "  roles Role[]\n  @@map(\"users\")\n\x7d\n"

/-- What that schema says. -/
def quotedDocument : Schema.Document :=
  ⟨[.enumeration ⟨"Role", [.entry ⟨"ADMIN", [], none⟩, .entry ⟨"USER", [], none⟩]⟩,
    .model .model ⟨"User", [.entry ⟨"email", .named "String", none, [⟨"unique", []⟩], none⟩,
      .entry ⟨"roles", .named "Role", some .list, [], none⟩,
      .blockAttribute ⟨"map", [⟨none, .string "users"⟩]⟩]⟩]⟩

/-- The roles. -/
def quotedRoles : Column where
  name := "roles"
  typeName := "Role"
  isArray := true
  isNotNull := true
  variants := some ["ADMIN", "USER"]

/-- The table of that model. -/
def quotedTable : Table where
  name := "User"
  tableName := "users"
  dialect := .prisma
  columns :=
    [{ name := "email", typeName := "String", isNotNull := true, isUnique := true }, quotedRoles]

/-- A declared table with a name in double quotes. -/
def quotedDeclaration : String :=
  "export const user = pgTable(\"users\", (t) => (\x7b email: t.text().unique() \x7d))"

/-- That table. -/
def declaredTable : Table where
  name := "user"
  tableName := "users"
  dialect := .drizzle
  columns := [{ name := "email", typeName := "text", isUnique := true }]

theorem plain_names_are_quoted_whole_sample :
    (Schema.Document.ofSource quotedSource = .ok quotedDocument ∧
      quotedDocument.tables = [quotedTable] ∧
      (HasLine (serviceModule default quotedTable) (conflictErrorLine "users") ∧
        Starts (units (conflictMessage "users").toList) (conflictLiteral "users").toList []) ∧
      HasLine (rowModule quotedTable)
          (FieldCode.line ⟨"roles", (quotedRoles.insertType .prisma).rowCode⟩) ∧
        CallsLiterals ["ADMIN", "USER"] (quotedRoles.insertType .prisma).rowCode) ∧
    Declaration.DeclaredTables.ofSource .strict quotedDeclaration = .ok ⟨[declaredTable], []⟩ ∧
      '\'' ∉ declaredTable.tableName.toList := by
  have hread : Schema.Document.ofSource quotedSource = .ok quotedDocument := by cbv
  have htables : quotedDocument.tables = [quotedTable] := by decide +kernel
  have hdeclared : Declaration.DeclaredTables.ofSource .strict quotedDeclaration =
      .ok ⟨[declaredTable], []⟩ := by
    decide +kernel
  have hplain : IsPlain "users".toList := by decide +kernel
  obtain ⟨hmessage, hdocument, hdeclaration⟩ := plain_names_are_quoted_whole default
  obtain ⟨hline, hstarts⟩ := hmessage quotedTable (by decide)
  have hstarts' := (hstarts []).2 hplain
  rw [List.append_nil] at hstarts'
  obtain ⟨-, hcolumns⟩ :=
    hdocument quotedSource quotedDocument hread quotedTable (by rw [htables]; exact .head _)
  obtain ⟨-, -, hinsert⟩ :=
    hcolumns quotedRoles (.tail _ (.head _)) ["ADMIN", "USER"] rfl
  obtain ⟨hunquoted, -⟩ :=
    hdeclaration .strict quotedDeclaration _ hdeclared declaredTable (.head _)
  exact ⟨⟨hread, htables, ⟨hline, hstarts'⟩, hinsert (by decide)⟩, hdeclared, hunquoted⟩

/-- A model with a quote in the name that it has in the database. -/
def mappedSource : String :=
  "model User \x7b\n  email String @unique\n  @@map(\"it's\")\n\x7d\n"

/-- What that schema says. -/
def mappedDocument : Schema.Document :=
  ⟨[.model .model ⟨"User", [.entry ⟨"email", .named "String", none, [⟨"unique", []⟩], none⟩,
      .blockAttribute ⟨"map", [⟨none, .string "it's"⟩]⟩]⟩]⟩

/-- **A name with a quote in it ends the message**: the schema is read, and the service has a
message that ends behind `it`, with the rest of the name behind it as code. -/
theorem map_name_ends_message :
    Schema.Document.ofCheckedSource mappedSource = .ok mappedDocument ∧
      ∃ t ∈ mappedDocument.tables, t.tableName = "it's" ∧
        ∀ o rest, HasLine (serviceModule o t) (conflictErrorLine "it's") ∧
          ¬ Starts (units (conflictMessage "it's").toList)
              ((conflictLiteral "it's").toList ++ rest) rest ∧
          Starts (units (conflictMessage "it").toList)
              ((conflictLiteral "it's").toList ++ rest) ('s' :: '\'' :: rest) := by
  have hread : Schema.Document.ofCheckedSource mappedSource = .ok mappedDocument := by cbv
  have hquote : ¬ IsPlain "it's".toList := by decide +kernel
  have hplain : IsPlain "it".toList := by decide +kernel
  refine ⟨hread, _, .head _, by decide +kernel, ?_⟩
  intro o rest
  refine ⟨?_, ?_, ?_⟩
  · exact hasLine_conflictErrorLine o (by decide +kernel)
  · rw [starts_conflictLiteral_iff]
    exact hquote
  · -- the literal of a shorter name, with the rest of the longer one behind it
    have htext : (conflictLiteral "it's").toList =
        (conflictLiteral "it").toList ++ ['s', '\''] := by
      decide +kernel
    rw [htext, List.append_assoc]
    exact (starts_conflictLiteral_iff ('s' :: '\'' :: rest)).2 hplain

end SchemaForge
