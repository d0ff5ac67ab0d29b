import SchemaForge.Proofs.Declaration.Headers
import SchemaForge.Proofs.Declaration.Returned

/-!
# Declarations and the ends of lines

A text of declarations may end its lines in either way.  Its headers are found where they were,
behind as many more characters as there are line feeds in front of them; so a header stands inside
an object exactly when it did, and each has the reading that it had.  Only the name of a table may
have a line feed, and then it has the carriage return too.

## Main definitions

* `Header.withReturns`, `Match.withReturns` — a header of a text with carriage returns.
* `placeWithReturns` — where a place of the text is.

## Main results

* `header?_withReturns` — **a header is read where it was.**
* `headerMatches_withReturns` — the headers of the text.
* `readings_withReturns` — **each header has the reading that it had.**
-/

namespace SchemaForge.Declaration

open Text

variable {text whole : List Char}

/-! ### One header -/

/-- The run of a class that has both characters goes as far. -/
theorem run?_withReturns (belongs : Char → Bool) (hreturn : belongs '\r' = true)
    (hnewline : belongs '\n' = true) (text : List Char) :
    run? belongs (withReturns text) =
      (run? belongs text).map fun (found, rest) => (withReturns found, withReturns rest) := by
  have hrun : (withReturns text).takeWhile belongs = withReturns (text.takeWhile belongs) ∧
      (withReturns text).dropWhile belongs = withReturns (text.dropWhile belongs) := by
    induction text with
    | nil => exact ⟨rfl, rfl⟩
    | cons c text ih =>
      by_cases hc : c = '\n'
      · subst hc
        simp only [withReturns_newline, List.takeWhile_cons_of_pos hreturn,
          List.takeWhile_cons_of_pos hnewline, List.dropWhile_cons_of_pos hreturn,
          List.dropWhile_cons_of_pos hnewline, ih]
        exact ⟨trivial, trivial⟩
      · rw [withReturns_cons hc]
        by_cases hbelongs : belongs c = true
        · simp only [List.takeWhile_cons_of_pos hbelongs, List.dropWhile_cons_of_pos hbelongs, ih,
            withReturns_cons hc]
          exact ⟨trivial, trivial⟩
        · simp only [List.takeWhile_cons_of_neg hbelongs, List.dropWhile_cons_of_neg hbelongs,
            withReturns_nil, withReturns_cons hc]
          exact ⟨trivial, trivial⟩
  rw [run?, hrun.1, hrun.2, run?]
  cases htake : text.takeWhile belongs with
  | nil => rfl
  | cons c found =>
    obtain ⟨d, more, hmore⟩ := List.exists_cons_of_ne_nil
      (mt withReturns_eq_nil_iff.1 (List.cons_ne_nil c found))
    show _ = some (withReturns (c :: found), _)
    rw [hmore]

theorem skipTypeToEquals?_withReturns (text : List Char) :
    skipTypeToEquals? (withReturns text) = (skipTypeToEquals? text).map withReturns := by
  have hequals := after?_respaced respacing_withReturns ['='] (by decide)
  have htype := run?_withReturns (· ≠ '=') (by decide) (by decide)
  rw [skipTypeToEquals?, skipTypeToEquals?, after?_respaced respacing_withReturns [':'] (by decide)]
  cases after? [':'] text with
  | none => exact hequals text
  | some type =>
    simp only [Option.map_some, htype, hequals, Option.bind_eq_bind, Option.bind_map,
      Option.map_bind, Function.comp_def]

/-- A header of a text with carriage returns. -/
def Header.withReturns (h : Header) : Header :=
  { h with tableName := Text.withReturns h.tableName, rest := Text.withReturns h.rest }

theorem isBlank_eq_false_of_isNameQuote (c : Char) (h : isNameQuote c = true) :
    isBlank c = false := by
  simp only [isNameQuote, Bool.or_eq_true, beq_iff_eq] at h
  rcases h with (rfl | rfl) | rfl <;> decide

/-- **A header is read where it was.** -/
theorem header?_withReturns (text : List Char) :
    header? (withReturns text) = (header? text).map Header.withReturns := by
  have hexport := after?_respaced respacing_withReturns "export".toList (by decide)
  have hconst := after?_respaced respacing_withReturns "const".toList (by decide)
  have hcall := mark?_respaced respacing_withReturns "pgTable".toList (by decide)
  have harrow := mark?_respaced respacing_withReturns "=>".toList (by decide)
  have hopen := mark?_respaced respacing_withReturns ['('] (by decide)
  have hcomma := mark?_respaced respacing_withReturns [','] (by decide)
  have hbrace := mark?_respaced respacing_withReturns ['\x7b'] (by decide)
  have hquote := one?_respaced respacing_withReturns isBlank_eq_false_of_isNameQuote
  have hname := run?_withReturns (fun c => !isNameQuote c) (by decide) (by decide)
  simp only [header?, hexport, hconst, hcall, harrow, hopen, hcomma, hbrace, hquote, hname,
    skipBlank?_respaced respacing_withReturns, skipBlanks_respaced respacing_withReturns,
    word?_respaced respacing_withReturns, skipTypeToEquals?_withReturns,
    param?_respaced respacing_withReturns, Option.bind_eq_bind, Option.bind_map, Option.map_bind,
    Function.comp_def, Option.pure_def, Option.map_some, Header.withReturns]

/-! ### Places -/

/-- Where a place of a text is in the text with carriage returns. -/
def placeWithReturns (whole : List Char) (n : Nat) : Nat :=
  (withReturns (whole.take n)).length

theorem placeWithReturns_add {whole own rest : List Char} {n : Nat}
    (h : whole.drop n = own ++ rest) :
    placeWithReturns whole (n + own.length) =
      placeWithReturns whole n + (withReturns own).length := by
  unfold placeWithReturns
  rw [List.take_add, h, List.take_left, withReturns_append, List.length_append]

theorem length_le_length_withReturns (text : List Char) :
    text.length ≤ (withReturns text).length := by
  induction text with
  | nil => exact Nat.le_refl 0
  | cons c text ih =>
    by_cases hc : c = '\n'
    · subst hc
      simp only [withReturns_newline, List.length_cons]
      omega
    · rw [withReturns_cons hc, List.length_cons, List.length_cons]
      omega

/-- **Places keep their order.** -/
theorem placeWithReturns_lt_iff {n : Nat} (h : n < whole.length) (k : Nat) :
    placeWithReturns whole n < placeWithReturns whole k ↔ n < k := by
  have hsplit : ∀ i j, placeWithReturns whole (i + j) =
      placeWithReturns whole i + (withReturns ((whole.drop i).take j)).length := by
    intro i j
    unfold placeWithReturns
    rw [List.take_add, withReturns_append, List.length_append]
  constructor
  · intro hlt
    by_contra hle
    obtain ⟨j, rfl⟩ := Nat.exists_eq_add_of_le (Nat.le_of_not_lt hle)
    rw [hsplit] at hlt
    omega
  · intro hlt
    obtain ⟨j, rfl⟩ := Nat.exists_eq_add_of_lt hlt
    have hpos := length_le_length_withReturns ((whole.drop n).take (j + 1))
    rw [List.length_take, List.length_drop] at hpos
    rw [Nat.add_assoc, hsplit]
    omega

/-! ### The headers of a text -/

/-- A header of a text with carriage returns, found in place of a header of a whole text. -/
def Match.withReturns (whole : List Char) (m : Match) : Match where
  header := m.header.withReturns
  text := Text.withReturns m.text
  start := placeWithReturns whole m.start
  position := m.position

theorem header?_of_isBlank {c : Char} (h : isBlank c = true) (rest : List Char) :
    header? (c :: rest) = none := by
  have hne : 'e' ≠ c := by
    rintro rfl
    exact absurd h (by decide)
  have hexport : after? "export".toList (c :: rest) = none := if_neg hne
  simp only [header?, hexport, Option.bind_eq_bind, Option.bind_none]

theorem headerMatchesFrom_withReturns {start : Nat} (htext : whole.drop start = text)
    (p : Position) :
    headerMatchesFrom (placeWithReturns whole start) p (withReturns text) =
      (headerMatchesFrom start p text).map (Match.withReturns whole) := by
  fun_induction headerMatchesFrom start p text with
  | case1 start p =>
    rw [withReturns_nil, headerMatchesFrom]
    rfl
  | case2 start p c rest hnone ih =>
    have hone : whole.drop start = [c] ++ rest := htext
    have hplace : placeWithReturns whole (start + 1) = _ := placeWithReturns_add hone
    have hrest := ih (drop_add_length hone)
    rw [hplace] at hrest
    by_cases hc : c = '\n'
    · subst hc
      -- no header starts at either of the two characters
      rw [withReturns_newline,
        headerMatchesFrom_cons _ _ (header?_of_isBlank (by decide) _),
        headerMatchesFrom_cons _ _ (header?_of_isBlank (by decide) _), ← hrest]
      rfl
    · have hnone' : header? (c :: withReturns rest) = none := by
        rw [← withReturns_cons hc, header?_withReturns, hnone]
        rfl
      rw [withReturns_cons hc] at hrest ⊢
      rw [headerMatchesFrom_cons _ _ hnone', ← hrest]
      rfl
  | case3 start p c rest header hfound own ih =>
    have hown : c :: rest = own ++ header.rest :=
      (List.suffix_iff_eq_append.1 (header?_rest_isSuffix hfound)).symm
    have hdrop : whole.drop start = own ++ header.rest := htext.trans hown
    have hfound' : header? (withReturns own ++ withReturns header.rest) =
        some header.withReturns := by
      rw [← withReturns_append, ← hown, header?_withReturns, hfound]
      rfl
    rw [hown, withReturns_append, headerMatchesFrom_of_eq_some _ _ hfound' rfl,
      after_withReturns, ← placeWithReturns_add hdrop, ih (drop_add_length hdrop)]
    rfl

/-- **The headers of the text with carriage returns.** -/
theorem headerMatches_withReturns (whole : List Char) :
    headerMatches (withReturns whole) = (headerMatches whole).map (Match.withReturns whole) := by
  have h := headerMatchesFrom_withReturns (List.drop_zero (l := whole)) .start
  exact h

/-! ### Readings -/

section

variable {m : Match}

theorem Match.start_lt_of_mem_headerMatches (h : m ∈ headerMatches whole) :
    m.start < whole.length := by
  by_contra hle
  have hheader := header?_of_mem_headerMatches h
  rw [List.drop_eq_nil_of_le (Nat.le_of_not_lt hle)] at hheader
  cases hheader

theorem Match.bodyStart_withReturns (h : m.IsIn whole) :
    (m.withReturns whole).bodyStart = placeWithReturns whole m.bodyStart :=
  (placeWithReturns_add h.text).symm

theorem Match.bodyPosition_withReturns (m : Match) :
    (m.withReturns whole).bodyPosition = m.bodyPosition :=
  after_withReturns m.position m.text

theorem Match.unterminated_withReturns (m : Match) :
    (m.withReturns whole).unterminated = m.unterminated := by
  show Unread.mk _ _ _ (String.ofList (collapse (Text.withReturns m.text))) = _
  rw [respacing_withReturns.collapse_eq]
  rfl

theorem Match.unrecognised_withReturns (m : Match) (e : Entry) :
    (m.withReturns whole).unrecognised e.withReturns = m.unrecognised e := by
  show Unread.mk _ _ _ (String.ofList (collapse (Text.withReturns e.text))) = _
  rw [respacing_withReturns.collapse_eq]
  rfl

theorem Match.tableOf_withReturns (h : '\n' ∉ m.header.tableName) (columns : List Column) :
    (m.withReturns whole).tableOf columns = m.tableOf columns := by
  have hname : (m.withReturns whole).header.tableName = m.header.tableName :=
    withReturns_of_not_mem h
  unfold tableOf
  rw [hname]
  rfl

/-- **A header has the reading that it had.** -/
theorem Match.readingOf_withReturns (h : '\n' ∉ m.header.tableName) (inside : List Chunk) :
    (m.withReturns whole).readingOf (inside.flatMap Chunk.withReturns) = m.readingOf inside := by
  have hcolumns : ∀ es : List Entry,
      ((es.map Entry.withReturns).map Entry.text).filterMap (columnOf? m.header.param) =
        (es.map Entry.text).filterMap (columnOf? m.header.param) := by
    intro es
    rw [List.map_map, List.filterMap_map, List.filterMap_map]
    exact List.filterMap_congr fun e _ => columnOf?_withReturns m.header.param e.text
  have hunread : ∀ es : List Entry,
      (m.withReturns whole).unreadEntries (es.map Entry.withReturns) = m.unreadEntries es := by
    intro es
    unfold unreadEntries
    rw [List.filterMap_map]
    refine List.filterMap_congr fun e _ => ?_
    show (if (columnOf? m.header.param (Text.withReturns e.text)).isSome then none
      else some ((m.withReturns whole).unrecognised e.withReturns)) = _
    rw [columnOf?_withReturns, unrecognised_withReturns]
  unfold readingOf
  rw [bodyPosition_withReturns, entries_flatMap_withReturns]
  dsimp only
  rw [tableOf_withReturns h, hunread]
  exact congrArg (fun columns => Reading.mk (some (m.tableOf columns)) _) (hcolumns _)

theorem readingsFrom_withReturns {ms : List Match} (hms : ∀ m ∈ ms, m ∈ headerMatches whole)
    (hnames : ∀ m ∈ ms, '\n' ∉ m.header.tableName) (resume : Nat) :
    readingsFrom (placeWithReturns whole resume) (ms.map (Match.withReturns whole)) =
      readingsFrom resume ms := by
  induction ms generalizing resume with
  | nil => rfl
  | cons m ms ih =>
    obtain ⟨hm, hms⟩ := List.forall_mem_cons.1 hms
    obtain ⟨hname, hnames⟩ := List.forall_mem_cons.1 hnames
    have hstart : (m.withReturns whole).start < placeWithReturns whole resume ↔ m.start < resume :=
      placeWithReturns_lt_iff (Match.start_lt_of_mem_headerMatches hm) resume
    have hclosing : splitClosing 0 (chunks (m.withReturns whole).header.rest) =
        (splitClosing 0 (chunks m.header.rest)).map fun split =>
          (split.1.flatMap Chunk.withReturns, split.2.flatMap Chunk.withReturns) := by
      rw [← splitClosing_flatMap_withReturns, ← chunks_withReturns]
      rfl
    rw [List.map_cons, readingsFrom, readingsFrom, hclosing]
    by_cases hinside : m.start < resume
    · rw [if_pos (hstart.2 hinside), if_pos hinside, ih hms hnames]
    · rw [if_neg (mt hstart.1 hinside), if_neg hinside]
      cases hsplit : splitClosing 0 (chunks m.header.rest) with
      | none =>
        have hunclosed : (m.withReturns whole).unclosed = m.unclosed :=
          congrArg (fun u => Reading.mk none [u]) m.unterminated_withReturns
        show (m.withReturns whole).unclosed :: _ = m.unclosed :: _
        rw [hunclosed, ih hms hnames]
      | some split =>
        obtain ⟨inside, behind⟩ := split
        obtain ⟨left, hleft⟩ := isPrefix_of_splitClosing hsplit
        have hin := Match.isIn_of_mem_headerMatches m hm
        have hrest : whole.drop m.bodyStart =
            inside.flatMap Chunk.text ++ left.flatMap Chunk.text := by
          rw [hin.drop_bodyStart, ← chunks_flatMap_text m.header.rest, ← hleft, List.flatMap_append]
        have hresume : (m.withReturns whole).bodyStart +
              ((inside.flatMap Chunk.withReturns).flatMap Chunk.text).length =
            placeWithReturns whole (m.bodyStart + (inside.flatMap Chunk.text).length) := by
          rw [Match.bodyStart_withReturns hin, flatMap_text_flatMap_withReturns,
            placeWithReturns_add hrest]
        show (m.withReturns whole).readingOf (inside.flatMap Chunk.withReturns) ::
          readingsFrom ((m.withReturns whole).bodyStart + _) _ = m.readingOf inside :: _
        rw [Match.readingOf_withReturns hname, hresume, ih hms hnames]

/-- **Each header has the reading that it had.** -/
theorem readings_withReturns (hnames : ∀ m ∈ headerMatches whole, '\n' ∉ m.header.tableName) :
    readings (withReturns whole) = readings whole := by
  have h := readingsFrom_withReturns (fun m hm => hm) hnames 0
  unfold readings
  rwa [headerMatches_withReturns]

/-- **A source with carriage returns declares the same tables**, and the same of it is not read. -/
theorem ofSource_withReturns {source : String}
    (hnames : ∀ m ∈ headerMatches source.toList, '\n' ∉ m.header.tableName) (mode : Mode) :
    DeclaredTables.ofSource mode (sourceWithReturns source) =
      DeclaredTables.ofSource mode source := by
  rw [DeclaredTables.ofSource_eq, DeclaredTables.ofSource_eq, DeclaredTables.ofText,
    toList_sourceWithReturns, readings_withReturns hnames, DeclaredTables.ofText]

end

end SchemaForge.Declaration
