import SchemaForge.Declaration.Source

/-!
# Readings of headers

What a header declares does not depend on how a reader treats the rest of the text: each header
has a reading of its own, a table with the entries of its object that are no columns, or no table
when the object is never closed.  A lenient reader collects the readings.  A strict reader stops
at the first thing that is unread in them.

## Main definitions

* `Reading`, `readings` — what the headers of a text give.
* `DeclaredTables.ofText` — the readings of a text, collected.
* `Mode.judge` — what a reader makes of a result with something left out.

## Main results

* `readFrom_eq` — **a reader of either kind agrees with the readings.**
-/

namespace SchemaForge.Declaration

open Text

/-! ### Readings -/

/-- What a header gives. -/
structure Reading where
  /-- The table, unless its object is never closed. -/
  table : Option Table
  /-- What was not read. -/
  unread : List Unread
  deriving DecidableEq, Inhabited

/-- What is left out of the entries of an object. -/
def Match.unreadEntries (m : Match) (es : List Entry) : List Unread :=
  es.filterMap fun e =>
    if (columnOf? m.header.param e.text).isSome then none else some (m.unrecognised e)

/-- The reading of a header whose object has this inside. -/
def Match.readingOf (m : Match) (inside : List Chunk) : Reading :=
  let es := entries m.bodyPosition inside
  { table := some (m.tableOf ((es.map Entry.text).filterMap (columnOf? m.header.param)))
    unread := m.unreadEntries es }

/-- The reading of a header whose object is never closed. -/
def Match.unclosed (m : Match) : Reading where
  table := none
  unread := [m.unterminated]

/-- The readings of a row of headers, of which those in front of `resume` stand inside the
object of a table read before. -/
def readingsFrom (resume : Nat) : List Match → List Reading
  | [] => []
  | m :: rest =>
    if m.start < resume then readingsFrom resume rest
    else
      match splitClosing 0 (chunks m.header.rest) with
      | none => m.unclosed :: readingsFrom resume rest
      | some (inside, _) =>
        m.readingOf inside ::
          readingsFrom (m.bodyStart + (inside.flatMap Chunk.text).length) rest

/-- What the headers of a text give. -/
def readings (text : List Char) : List Reading :=
  readingsFrom 0 (headerMatches text)

/-- A reading is that of one of the headers. -/
theorem exists_match_of_mem_readingsFrom {resume : Nat} {ms : List Match} {r : Reading}
    (hr : r ∈ readingsFrom resume ms) :
    ∃ m ∈ ms, r = m.unclosed ∨ ∃ inside behind,
      splitClosing 0 (chunks m.header.rest) = some (inside, behind) ∧ r = m.readingOf inside := by
  -- a header that stands in the object of another has no reading, so `resume` varies
  induction ms generalizing resume with
  | nil => cases hr
  | cons m ms ih =>
    have hlater {resume' : Nat} (hr' : r ∈ readingsFrom resume' ms) :
        ∃ m' ∈ m :: ms, r = m'.unclosed ∨ ∃ inside behind,
          splitClosing 0 (chunks m'.header.rest) = some (inside, behind) ∧
            r = m'.readingOf inside := by
      obtain ⟨m', hm', hreading⟩ := ih hr'
      exact ⟨m', List.mem_cons_of_mem _ hm', hreading⟩
    rw [readingsFrom] at hr
    split at hr
    · exact hlater hr
    · split at hr
      · rcases List.mem_cons.1 hr with rfl | hr
        · exact ⟨m, List.mem_cons_self .., .inl rfl⟩
        · exact hlater hr
      · next inside behind hsplit =>
        rcases List.mem_cons.1 hr with rfl | hr
        · exact ⟨m, List.mem_cons_self .., .inr ⟨inside, behind, hsplit, rfl⟩⟩
        · exact hlater hr

/-- The tables of a row of readings, and what they leave out. -/
def DeclaredTables.collect (rs : List Reading) : DeclaredTables where
  tables := rs.filterMap (·.table)
  skipped := rs.flatMap (·.unread)

/-- The tables of a text as a lenient reader sees them. -/
def DeclaredTables.ofText (text : List Char) : DeclaredTables :=
  collect (readings text)

theorem DeclaredTables.collect_unclosed (m : Match) (rs : List Reading) :
    collect (m.unclosed :: rs) =
      ⟨(collect rs).tables, m.unterminated :: (collect rs).skipped⟩ := rfl

theorem DeclaredTables.collect_readingOf (m : Match) (inside : List Chunk) (rs : List Reading) :
    collect (m.readingOf inside :: rs) =
      ⟨m.tableOf (((entries m.bodyPosition inside).map Entry.text).filterMap
          (columnOf? m.header.param)) :: (collect rs).tables,
        m.unreadEntries (entries m.bodyPosition inside) ++ (collect rs).skipped⟩ := rfl

/-! ### Readers -/

/-- What a reader makes of a result that leaves something out: a strict one has stopped at the
first of it. -/
def Mode.judge {α : Type} (mode : Mode) (skipped : List Unread) (a : α) : Except Unread α :=
  match mode, skipped with
  | .strict, u :: _ => .error u
  | _, _ => .ok a

section

variable {α β : Type} (mode : Mode)

@[simp] theorem Mode.judge_nil (a : α) : mode.judge [] a = .ok a := by
  cases mode <;> rfl

/-- Going on after something was left out leaves out that and what is left out later. -/
theorem Mode.judge_bind {first later : List Unread} {a : α} {b : β} {next : α → Except Unread β}
    (h : next a = mode.judge later b) :
    mode.judge first a >>= next = mode.judge (first ++ later) b := by
  cases mode with
  | lenient => exact h
  | strict =>
    cases first with
    | nil => exact h
    | cons u first => rfl

theorem Mode.judge_map (skipped : List Unread) (a : α) (f : α → β) :
    (mode.judge skipped a >>= fun a => return f a) = mode.judge skipped (f a) := by
  have h : (mode.judge skipped a >>= fun a => return f a) = mode.judge (skipped ++ []) (f a) :=
    mode.judge_bind (mode.judge_nil (f a)).symm
  rwa [List.append_nil] at h

/-- Something left out comes first among what is left out. -/
theorem Mode.leaveOut_bind {u : Unread} {later : List Unread} {b : β}
    {next : Unit → Except Unread β} (h : next () = mode.judge later b) :
    mode.leaveOut u >>= next = mode.judge (u :: later) b := by
  cases mode with
  | lenient => exact h
  | strict => rfl

end

/-- The entries of an object, read one after another. -/
theorem Match.readEntries_eq (mode : Mode) (m : Match) (es : List Entry) :
    m.readEntries mode es =
      mode.judge (m.unreadEntries es)
        ((es.map Entry.text).filterMap (columnOf? m.header.param), m.unreadEntries es) := by
  induction es with
  | nil => exact (mode.judge_nil _).symm
  | cons e es ih =>
    rw [readEntries]
    cases hcolumn : columnOf? m.header.param e.text with
    | some column =>
      have hunread : m.unreadEntries (e :: es) = m.unreadEntries es := by
        simp [unreadEntries, hcolumn]
      have hcolumns : ((e :: es).map Entry.text).filterMap (columnOf? m.header.param) =
          column :: (es.map Entry.text).filterMap (columnOf? m.header.param) := by
        rw [List.map_cons, List.filterMap_cons_some hcolumn]
      rw [hunread, hcolumns, ih]
      exact mode.judge_map _ _ _
    | none =>
      have hunread : m.unreadEntries (e :: es) = m.unrecognised e :: m.unreadEntries es := by
        simp [unreadEntries, hcolumn]
      have hcolumns : ((e :: es).map Entry.text).filterMap (columnOf? m.header.param) =
          (es.map Entry.text).filterMap (columnOf? m.header.param) := by
        rw [List.map_cons, List.filterMap_cons_none hcolumn]
      rw [hunread, hcolumns, ih]
      exact mode.leaveOut_bind (mode.judge_map _ _ _)

/-- Entries in a row are read one row after the other. -/
theorem Match.readEntries_append (mode : Mode) (m : Match) (es es' : List Entry) :
    m.readEntries mode (es ++ es') = do
      let (columns, unread) ← m.readEntries mode es
      let (columns', unread') ← m.readEntries mode es'
      return (columns ++ columns', unread ++ unread') := by
  induction es with
  | nil => simp [readEntries]
  | cons e es ih =>
    rw [List.cons_append, readEntries, readEntries]
    cases columnOf? m.header.param e.text with
    | some column => simp [ih]
    | none => simp [ih]

namespace DeclaredTables

/-- **A reader of either kind agrees with the readings** of the headers: the two kinds differ only
in that a strict one stops at the first thing left out. -/
theorem readFrom_eq (mode : Mode) (resume : Nat) (ms : List Match) :
    readFrom mode resume ms =
      mode.judge (collect (readingsFrom resume ms)).skipped (collect (readingsFrom resume ms)) := by
  induction ms generalizing resume with
  | nil => exact (mode.judge_nil _).symm
  | cons m ms ih =>
    rw [readFrom, readingsFrom]
    by_cases hstart : m.start < resume
    · rw [if_pos hstart, if_pos hstart]
      exact ih resume
    rw [if_neg hstart, if_neg hstart]
    cases splitClosing 0 (chunks m.header.rest) with
    | none =>
      dsimp only
      rw [collect_unclosed, ih]
      exact mode.leaveOut_bind (mode.judge_map _ _ _)
    | some split =>
      dsimp only
      rw [collect_readingOf, Match.readEntries_eq, ih]
      exact mode.judge_bind (mode.judge_map _ _ _)

/-- A source text is read as its readings say. -/
theorem ofSource_eq (mode : Mode) (source : String) :
    ofSource mode source =
      mode.judge (ofText source.toList).skipped (ofText source.toList) :=
  readFrom_eq mode 0 (headerMatches source.toList)

section

variable {mode : Mode} {source : String}

theorem eq_ofText_of_ofSource {declared : DeclaredTables}
    (h : ofSource mode source = .ok declared) : declared = ofText source.toList := by
  rw [ofSource_eq] at h
  unfold Mode.judge at h
  split at h
  · cases h
  · exact (Except.ok.inj h).symm

/-- A strict reader stops at something that a lenient one leaves out. -/
theorem mem_skipped_of_error {u : Unread} (h : ofSource mode source = .error u) :
    u ∈ (ofText source.toList).skipped := by
  rw [ofSource_eq] at h
  unfold Mode.judge at h
  split at h
  · next skipped hskipped =>
    cases h
    rw [hskipped]
    exact List.mem_cons_self ..
  · cases h

end

end DeclaredTables

end SchemaForge.Declaration
