import SchemaForge.Proofs.Declaration.ClosedEntries
import SchemaForge.Proofs.Declaration.Lookahead
import SchemaForge.Proofs.Declaration.Splitting

/-!
# The scanners agree

One scanner goes through the bytes of a text for the bracket that closes another, and one for the
entries between the two.  Each jumps over literals and comments by itself, counts depths of its own
and cuts the text at offsets.  They agree: where the first finds a bracket, the second needs nothing
to fall back on, and what it finds is what two passes over the characters find.  Columns and tables
that are read with these scanners are those of the text.

## Main results

* `scanColumn_eq`, `scanTables_eq` — columns and tables are scanned without a fault.
* `bracket_scanners_agree` — **the scanners agree.**
-/

namespace SchemaForge.Declaration

open Text

/-! ### Brackets in front of what is read on -/

section

variable {text rest : List Char} {c : Char}

theorem cons_isSuffix_of_mark? (h : mark? [c] text = some rest) : c :: rest <:+ text := by
  have hskip : [c] ++ rest = skipBlanks text := append_of_after? h
  rw [← List.singleton_append, hskip]
  exact skipBlanks_isSuffix text

/-- A header ends in the brace that opens the object. -/
theorem brace_isSuffix_of_header? {header : Header} (h : header? text = some header) :
    '\x7b' :: header.rest <:+ text := by
  rw [header?_eq] at h
  obtain ⟨⟨parts, mid⟩, hfront, hmark⟩ := Option.bind_eq_some_iff.1 h
  obtain ⟨left, hleft, rfl⟩ := Option.map_eq_some_iff.1 hmark
  obtain ⟨own, rfl, -⟩ := local_headerFront? text parts mid hfront
  exact (cons_isSuffix_of_mark? hleft).trans (List.suffix_append own mid)

theorem skipOne_isSuffix (belongs : Char → Bool) (text : List Char) :
    skipOne belongs text <:+ text := by
  cases text with
  | nil => exact List.suffix_rfl
  | cons c text =>
    rw [skipOne]
    split
    · exact List.suffix_cons c text
    · exact List.suffix_rfl

/-- The head of a column ends in the parenthesis that opens the arguments. -/
theorem parenthesis_isSuffix_of_columnHead? {head : ColumnHead} (h : columnHead? text = some head) :
    '(' :: head.rest <:+ text := by
  simp only [columnHead?, Option.bind_eq_bind, Option.bind_eq_some_iff, Option.pure_def,
    Option.some.injEq] at h
  obtain ⟨⟨name, t₁⟩, h₁, t₂, h₂, ⟨param, t₃⟩, h₃, t₄, h₄, ⟨builder, t₅⟩, h₅, t₆, h₆, rfl⟩ := h
  have hname : t₁ <:+ text := (isSuffix_of_run? h₁).trans (skipOne_isSuffix _ text)
  have hparam : t₃ <:+ t₁ := (isSuffix_of_run? h₃).trans ((skipBlanks_isSuffix t₂).trans
    ((isSuffix_of_mark? h₂).trans (skipOne_isSuffix _ t₁)))
  have hbuilder : t₅ <:+ t₃ := (isSuffix_of_run? h₅).trans ((skipBlanks_isSuffix t₄).trans
    (isSuffix_of_mark? h₄))
  exact (cons_isSuffix_of_mark? h₆).trans (hbuilder.trans (hparam.trans hname))

end

/-- What is inside a bracket, the bracket that closes it and what is behind make up the text. -/
theorem exists_text_of_splitClosing {text : List Char} {inside behind : List Chunk}
    (h : splitClosing 0 (chunks text) = some (inside, behind)) :
    ∃ c, isClosing c = true ∧
      text = inside.flatMap Chunk.text ++ c :: behind.flatMap Chunk.text := by
  obtain ⟨c, -, hclose, hchunks, -⟩ := exists_of_splitClosing h
  refine ⟨c, hclose, ?_⟩
  rw [← chunks_flatMap_text text, hchunks, List.flatMap_append, List.flatMap_cons]
  rfl

theorem breaksSlash_of_isClosing {c : Char} (h : isClosing c = true) (rest : List Char) :
    BreaksSlash (c :: rest) := by
  simp only [isClosing, Bool.or_eq_true, beq_iff_eq] at h
  rcases h with (rfl | rfl) | rfl <;> exact breaksSlash_cons.2 (by decide)

/-! ### Columns -/

/-- **The scanner reads the column of an entry**, and cuts the entry only where it may. -/
theorem scanColumn_eq (param text : List Char) :
    scanColumn param text = .ok (columnOf? param text) := by
  rw [scanColumn, columnOf?]
  cases hhead : columnHead? text with
  | none => rfl
  | some head =>
    dsimp only [Option.bind_eq_bind, Option.bind_some]
    by_cases hparam : head.param = param
    · obtain ⟨own, rfl⟩ := parenthesis_isSuffix_of_columnHead? hhead
      have hopening :
          byteSize (own ++ '(' :: head.rest) - byteSize head.rest - 1 = byteSize own := by
        rw [byteSize_append, byteSize_cons, utf8Size_of_lt (by decide)]
        omega
      rw [if_neg (fun h => h hparam), hopening, findClosing_eq (by decide)]
      cases hclosing : splitClosing 0 (chunks head.rest) with
      | none =>
        simp [hparam]
        rfl
      | some split =>
        obtain ⟨inside, behind⟩ := split
        obtain ⟨c, hc, hrest⟩ := exists_text_of_splitClosing hclosing
        have hbehind : byteSize (own ++ ['(']) + byteSize (inside.flatMap Chunk.text) + 1 =
            byteSize (own ++ ['('] ++ inside.flatMap Chunk.text ++ [c]) := by
          rw [byteSize_concat_of_lt (lt_of_isClosing hc), byteSize_append _ (inside.flatMap _)]
        have htext : own ++ '(' :: head.rest =
            own ++ ['('] ++ inside.flatMap Chunk.text ++ [c] ++ behind.flatMap Chunk.text := by
          simp [hrest]
        simp only [Option.map_some, bind, Except.bind, hbehind]
        rw [htext, slice_append_right]
        simp [hparam]
        rfl
    · simp [hparam]
      rfl

/-! ### Tables -/

section

variable {α β : Type} {whole : List Char} {m : Match} {resume : Nat}

/-- A scanner that commits no fault reads on. -/
theorem ok_bind_scan (a : α) (f : α → Scan β) :
    (((Except.ok a : Except ScanFault α) : Scan α) >>= f) = f a := rfl

theorem Match.scanEntries_eq (mode : Mode) (m : Match) (es : List Entry) :
    m.scanEntries mode es = ExceptT.mk (.ok (m.readEntries mode es)) := by
  induction es with
  | nil => rfl
  | cons e es ih =>
    rw [scanEntries, scanColumn_eq, ok_bind_scan, readEntries]
    cases columnOf? m.header.param e.text with
    | some column =>
      dsimp only
      rw [ih]
      cases m.readEntries mode es <;> rfl
    | none =>
      dsimp only
      rw [ih]
      cases mode.leaveOut (m.unrecognised e) with
      | error unread => rfl
      | ok =>
        cases m.readEntries mode es <;> rfl

/-- A header stands in its text with the brace that opens its object. -/
theorem Match.IsIn.exists_own (h : m.IsIn whole)
    (hheader : header? (whole.drop m.start) = some m.header) :
    ∃ own, m.text = own ++ ['\x7b'] ∧
      whole = whole.take m.start ++ own ++ '\x7b' :: m.header.rest := by
  obtain ⟨own, hown⟩ := brace_isSuffix_of_header? hheader
  have htext : m.text = own ++ ['\x7b'] := by
    have hboth : m.text ++ m.header.rest = own ++ ['\x7b'] ++ m.header.rest := by
      rw [← h.text, ← hown]
      simp
    exact List.append_cancel_right hboth
  refine ⟨own, htext, ?_⟩
  rw [List.append_assoc, hown, List.take_append_drop]

theorem take_add_length {n : Nat} {own rest : List Char} (h : whole.drop n = own ++ rest) :
    whole.take (n + own.length) = whole.take n ++ own := by
  rw [List.take_add, h, List.take_left]

/-- The object of a header starts behind its brace, which is one byte. -/
theorem Match.IsIn.byteSize_brace (h : m.IsIn whole) {own : List Char}
    (hown : m.text = own ++ ['\x7b']) :
    byteSize (whole.take m.start) + byteSize m.text - 1 = byteSize (whole.take m.start ++ own) ∧
      byteSize (whole.take m.start ++ own) + 1 = byteSize (whole.take m.bodyStart) := by
  have htext : byteSize m.text = byteSize own + 1 := by
    rw [hown, byteSize_concat_of_lt (by decide)]
  have hbody : byteSize (whole.take m.bodyStart) =
      byteSize (whole.take m.start) + byteSize m.text := by
    rw [Match.bodyStart, take_add_length h.text, byteSize_append]
  rw [byteSize_append]
  omega

/-- **The bracket that closes a header's object is found.** -/
theorem Match.IsIn.findClosing_eq (h : m.IsIn whole) {own : List Char}
    (hown : m.text = own ++ ['\x7b'])
    (hwhole : whole = whole.take m.start ++ own ++ '\x7b' :: m.header.rest) :
    findClosing whole (byteSize (whole.take m.start ++ own)) =
      .ok ((splitClosing 0 (chunks m.header.rest)).map fun s =>
        byteSize (whole.take m.bodyStart) + byteSize (s.1.flatMap Chunk.text)) := by
  have hclosing := Declaration.findClosing_eq (by decide : isOpening '\x7b' = true)
    (whole.take m.start ++ own) m.header.rest
  rwa [← hwhole, byteSize_concat_of_lt (by decide), (h.byteSize_brace hown).2] at hclosing

/-- The place of a header is found from its offset. -/
theorem Match.IsIn.lineColumn_eq (h : m.IsIn whole) :
    lineColumn whole (byteSize (whole.take m.start)) = .ok m.position := by
  have hplace := Declaration.lineColumn_eq (whole.take m.start) (whole.drop m.start)
  rwa [List.take_append_drop, ← after_start, ← positionAt, ← h.position] at hplace

/-- The bracket that closes a header's object is in the text. -/
theorem Match.IsIn.bodyEnd_le (h : m.IsIn whole) {inside behind : List Chunk}
    (hsplit : splitClosing 0 (chunks m.header.rest) = some (inside, behind)) :
    m.bodyStart + (inside.flatMap Chunk.text).length ≤ whole.length := by
  obtain ⟨c, -, hrest⟩ := exists_text_of_splitClosing hsplit
  have hlength := congrArg List.length (h.drop_bodyStart.trans hrest)
  rw [List.length_drop, List.length_append, List.length_cons] at hlength
  omega

/-- The offset of the bracket that closes a header's object. -/
theorem Match.IsIn.byteSize_bodyEnd (h : m.IsIn whole) {inside behind : List Chunk}
    (hsplit : splitClosing 0 (chunks m.header.rest) = some (inside, behind)) :
    byteSize (whole.take (m.bodyStart + (inside.flatMap Chunk.text).length)) =
      byteSize (whole.take m.bodyStart) + byteSize (inside.flatMap Chunk.text) := by
  obtain ⟨c, -, hrest⟩ := exists_text_of_splitClosing hsplit
  rw [take_add_length (h.drop_bodyStart.trans hrest), byteSize_append]

/-- **The entries of a header's object are scanned.** -/
theorem Match.IsIn.splitEntries_eq (h : m.IsIn whole) (fallbacks : Fallbacks)
    {inside behind : List Chunk}
    (hsplit : splitClosing 0 (chunks m.header.rest) = some (inside, behind)) :
    splitEntries fallbacks whole (byteSize (whole.take m.bodyStart))
        (byteSize (whole.take (m.bodyStart + (inside.flatMap Chunk.text).length))) =
      .ok (entries m.bodyPosition inside) := by
  obtain ⟨c, hclose, hrest⟩ := exists_text_of_splitClosing hsplit
  obtain ⟨hclosed, hchunks⟩ := isClosed_of_splitClosing hsplit
  have hbody : whole.drop m.bodyStart =
      inside.flatMap Chunk.text ++ c :: behind.flatMap Chunk.text := h.drop_bodyStart.trans hrest
  have hbreaks : BreaksSlash (c :: behind.flatMap Chunk.text) := breaksSlash_of_isClosing hclose _
  have hfound := Declaration.splitEntries_eq fallbacks (whole.take m.bodyStart) hbreaks hclosed
  rw [← hbody, List.take_append_drop, ← take_add_length hbody, hchunks] at hfound
  rw [hfound, h.bodyPosition_eq, positionAt, after_start]

/-- **The scanner reads the tables of a row of headers.** -/
theorem scanTablesFrom_eq (fallbacks : Fallbacks) (mode : Mode) {ms : List Match}
    (hms : ∀ m ∈ ms, m.IsIn whole ∧ header? (whole.drop m.start) = some m.header)
    (hresume : resume ≤ whole.length) :
    scanTablesFrom fallbacks mode whole (byteSize (whole.take resume)) ms =
      ExceptT.mk (.ok (DeclaredTables.readFrom mode resume ms)) := by
  induction ms generalizing resume with
  | nil => rfl
  | cons m ms ih =>
    obtain ⟨⟨hin, hheader⟩, hrest⟩ := List.forall_mem_cons.1 hms
    obtain ⟨own, hown, hwhole⟩ := hin.exists_own hheader
    obtain ⟨hopening, hbody⟩ := hin.byteSize_brace hown
    rw [scanTablesFrom, DeclaredTables.readFrom]
    simp only [byteSize_take_lt_iff hresume, hopening, hbody, hin.findClosing_eq hown hwhole,
      ok_bind_scan]
    by_cases hinside : m.start < resume
    · rw [if_pos hinside, if_pos hinside]
      exact ih hrest hresume
    rw [if_neg hinside, if_neg hinside]
    cases hsplit : splitClosing 0 (chunks m.header.rest) with
    | none =>
      simp only [Option.map_none, hin.lineColumn_eq, ok_bind_scan, ih hrest hresume]
      have hunread : { m.unterminated with position := m.position } = m.unterminated := rfl
      rw [hunread]
      cases mode.leaveOut m.unterminated with
      | error unread => rfl
      | ok => cases DeclaredTables.readFrom mode resume ms <;> rfl
    | some split =>
      obtain ⟨inside, behind⟩ := split
      simp only [Option.map_some, ← hin.byteSize_bodyEnd hsplit,
        hin.splitEntries_eq fallbacks hsplit, ok_bind_scan, Match.scanEntries_eq,
        ih hrest (hin.bodyEnd_le hsplit)]
      cases m.readEntries mode (entries m.bodyPosition inside) with
      | error unread => rfl
      | ok =>
        cases DeclaredTables.readFrom mode
          (m.bodyStart + (inside.flatMap Chunk.text).length) ms <;> rfl

/-- **The scanner reads the tables of a text**, and commits no fault. -/
theorem scanTables_eq (fallbacks : Fallbacks) (mode : Mode) (source : String) :
    scanTables fallbacks mode source = .ok (DeclaredTables.ofSource mode source) := by
  have hms : ∀ m ∈ headerMatches source.toList, m.IsIn source.toList ∧
      header? (source.toList.drop m.start) = some m.header := fun m hm =>
    ⟨Match.isIn_of_mem_headerMatches m hm, header?_of_mem_headerMatches hm⟩
  have hfound := scanTablesFrom_eq fallbacks mode hms (Nat.zero_le _)
  rw [List.take_zero, byteSize_nil] at hfound
  rw [scanTables, hfound]
  rfl

end

/-! ### Agreement -/

/-- **The scanners agree.**  None of them looks at a byte out of range, or cuts a text where it must
not.  Where a bracket is closed, the scanner that splits has nothing to fall back on, and finds in
front of the bracket that closes what two passes over the characters find; every entry is closed
itself, with every bracket in it that is outside literals. -/
theorem bracket_scanners_agree (source : String) :
    (∀ i, ∃ found, findClosing source.toList i = .ok found) ∧
    (∀ fallbacks mode,
      scanTables fallbacks mode source = .ok (DeclaredTables.ofSource mode source)) ∧
    ∀ opening b closing, (utf8 source.toList)[opening]? = some b → isOpening (byteChar b) = true →
      findClosing source.toList opening = .ok (some closing) →
      ∃ inside es, slice? source.toList (opening + 1) closing = some inside ∧
        (∀ fallbacks, splitEntries fallbacks source.toList (opening + 1) closing = .ok es) ∧
        es.map Entry.text = twoPass inside ∧
        ∀ e ∈ es, IsClosed e.text ∧
          ∀ front b back, e.text = front ++ b :: back → isOpening b = true →
            Quoting.outside.after front = .outside →
            ∃ closing, findClosing e.text (byteSize front) = .ok (some closing) := by
  refine ⟨exists_findClosing _, fun _ _ => scanTables_eq _ _ _, ?_⟩
  intro opening b closing hb hopen hclosing
  have hbyte : b.toNat < 128 := by
    rw [← toNat_byteChar]
    exact lt_of_isOpening hopen
  obtain ⟨front, back, htext, rfl⟩ := exists_of_getElem?_utf8 hb hbyte
  rw [htext, findClosing_eq hopen] at hclosing
  obtain ⟨⟨inside, behind⟩, hsplit, rfl⟩ := Option.map_eq_some_iff.1 (Except.ok.inj hclosing)
  obtain ⟨c, hclose, hback⟩ := exists_text_of_splitClosing hsplit
  obtain ⟨hclosed, -⟩ := isClosed_of_splitClosing hsplit
  have hsource : source.toList = front ++ [byteChar b] ++
      (inside.flatMap Chunk.text ++ c :: behind.flatMap Chunk.text) := by
    rw [htext, hback]
    simp
  have hentries := fun fallbacks => splitEntries_eq fallbacks (front ++ [byteChar b])
    (breaksSlash_of_isClosing hclose (behind.flatMap Chunk.text)) hclosed
  rw [← byteSize_concat_of_lt (lt_of_isOpening hopen) front, hsource]
  rw [byteSize_append _ (inside.flatMap _)] at hentries
  refine ⟨_, _, slice?_append .., hentries, map_text_entries hclosed _, fun e he => ?_⟩
  have hbare := isBare_of_mem_entries hclosed he
  refine ⟨hbare.isClosed, fun front b back htext hopen hfront => ?_⟩
  rw [htext] at hbare ⊢
  exact exists_findClosing_of_isBare hbare hfront hopen

/-- An object with an escape that ends inside a character, and with commas and brackets in a literal
and in comments. -/
def scannedSource : String :=
  "\x7b é: f(\"\\é,)\") /* , é) */ . g(), // \x7d\n b: [1, 2] \x7d ;"

theorem bracket_scanners_agree_sample :
    let entry : List Char := "é: f(\"\\é,)\")   . g()".toList
    (utf8 scannedSource.toList)[0]? = some 123 ∧ isOpening (byteChar 123) = true ∧
      findClosing scannedSource.toList 0 = .ok (some 52) ∧
      (∃ es, (∀ fallbacks, splitEntries fallbacks scannedSource.toList 1 52 = .ok es) ∧
        es.map Entry.text = [entry, "b: [1, 2]".toList]) ∧
      entry = "é: f".toList ++ '(' :: "\"\\é,)\")   . g()".toList ∧ isOpening '(' = true ∧
      Quoting.outside.after "é: f".toList = .outside ∧
      ∃ closing, findClosing entry (byteSize "é: f".toList) = .ok (some closing) := by
  have hfirst : (utf8 scannedSource.toList)[0]? = some 123 := by decide
  have hopen : isOpening (byteChar 123) = true := by decide
  have hclosing : findClosing scannedSource.toList 0 = .ok (some 52) := by decide +kernel
  obtain ⟨inside, es, hinside, hes, htexts, hclosed⟩ :=
    (bracket_scanners_agree scannedSource).2.2 0 123 52 hfirst hopen hclosing
  have hslice : slice? scannedSource.toList 1 52 = some
      " é: f(\"\\é,)\") /* , é) */ . g(), // \x7d\n b: [1, 2] ".toList := by decide +kernel
  obtain rfl := Option.some.inj (hinside.symm.trans hslice)
  have hpieces : twoPass " é: f(\"\\é,)\") /* , é) */ . g(), // \x7d\n b: [1, 2] ".toList =
      ["é: f(\"\\é,)\")   . g()".toList, "b: [1, 2]".toList] := by decide +kernel
  rw [hpieces] at htexts
  obtain ⟨e, he, htext⟩ : ∃ e ∈ es, e.text = "é: f(\"\\é,)\")   . g()".toList :=
    List.mem_map.1 (htexts ▸ List.mem_cons_self ..)
  have hentry : "é: f(\"\\é,)\")   . g()".toList =
      "é: f".toList ++ '(' :: "\"\\é,)\")   . g()".toList := by decide +kernel
  have hfront : Quoting.outside.after "é: f".toList = .outside := by decide +kernel
  have hbracket := (hclosed e he).2 _ _ _ (htext.trans hentry) (by decide) hfront
  rw [htext] at hbracket
  exact ⟨hfirst, hopen, hclosing, ⟨es, hes, htexts⟩, hentry, by decide, hfront, hbracket⟩

end SchemaForge.Declaration
