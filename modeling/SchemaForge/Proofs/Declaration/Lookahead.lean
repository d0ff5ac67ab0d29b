import SchemaForge.Proofs.Declaration.Headers
import SchemaForge.Proofs.Declaration.Pattern

/-!
# What a header is read from

The parts of a header are read from left to right, and none looks further than the one character
behind what it takes: a run ends where a character does not belong to it, and a mark is known by
its own characters.  So a header is read from its own text, and what stands behind its last
bracket may be exchanged for anything else.

## Main definitions

* `Local` — a reader that looks no further than one character behind what it takes.
* `headerFront?` — a header up to its last bracket, as a chain of such readers.

## Main results

* `Local.andThen`, `Local.atMark` — chains and choices of local readers are local.
* `header?_exchange` — **a header is read from its own text.**
-/

namespace SchemaForge.Declaration

open Text

/-! ### Local readers -/

section

variable {α β : Type}

/-- A reader that looks no further than one character behind what it takes: what it leaves may be
exchanged for a text with the same first character. -/
def Local (read : List Char → Option (α × List Char)) : Prop :=
  ∀ text a rest, read text = some (a, rest) →
    ∃ own, text = own ++ rest ∧
      ∀ rest', rest'.head? = rest.head? → read (own ++ rest') = some (a, rest')

/-- Read something, and something else behind it. -/
def andThen (read : List Char → Option (α × List Char))
    (next : α → List Char → Option (β × List Char)) (text : List Char) : Option (β × List Char) :=
  (read text).bind fun found => next found.1 found.2

/-- Read nothing but what is passed over. -/
def passing (pass : List Char → Option (List Char)) (text : List Char) :
    Option (Unit × List Char) :=
  (pass text).map fun rest => ((), rest)

/-- Read one thing behind a mark, and another where the mark is not. -/
def atMark (mark : Char) (read other : List Char → Option (α × List Char)) (text : List Char) :
    Option (α × List Char) :=
  match after? [mark] text with
  | some inside => read inside
  | none => other text

theorem head?_append_congr {own rest rest' : List Char} (h : rest'.head? = rest.head?) :
    (own ++ rest').head? = (own ++ rest).head? := by
  cases own with
  | nil => exact h
  | cons c own => rfl

theorem Local.andThen {read : List Char → Option (α × List Char)}
    {next : α → List Char → Option (β × List Char)} (hread : Local read)
    (hnext : ∀ a, Local (next a)) : Local (andThen read next) := by
  intro text b rest h
  obtain ⟨⟨a, mid⟩, hmid, hrest⟩ := Option.bind_eq_some_iff.1 h
  obtain ⟨own, rfl, hown⟩ := hread text a mid hmid
  obtain ⟨more, rfl, hmore⟩ := hnext a mid b rest hrest
  refine ⟨own ++ more, (List.append_assoc ..).symm, fun rest' hhead => ?_⟩
  rw [List.append_assoc]
  exact Option.bind_eq_some_iff.2 ⟨(a, more ++ rest'), hown _ (head?_append_congr hhead),
    hmore rest' hhead⟩

theorem Local.atMark {mark : Char} {read other : List Char → Option (α × List Char)}
    (hread : Local read) (hother : Local other) : Local (atMark mark read other) := by
  intro text a rest h
  cases hmark : after? [mark] text with
  | some inside =>
    rw [Declaration.atMark, hmark] at h
    obtain ⟨own, rfl, hown⟩ := hread inside a rest h
    refine ⟨mark :: own, (append_of_after? hmark).symm, fun rest' hhead => ?_⟩
    have hmark' : after? [mark] (mark :: own ++ rest') = some (own ++ rest') :=
      after?_append [mark] (own ++ rest')
    rw [Declaration.atMark, hmark']
    exact hown rest' hhead
  | none =>
    rw [Declaration.atMark, hmark] at h
    obtain ⟨own, rfl, hown⟩ := hother text a rest h
    refine ⟨own, rfl, fun rest' hhead => ?_⟩
    -- whether the mark is there is seen from the first character
    have hmark' : after? [mark] (own ++ rest') = none := by
      have hheads : (own ++ rest').head? = (own ++ rest).head? := head?_append_congr hhead
      cases hleft : own ++ rest with
      | nil =>
        rw [hleft, List.head?_nil, List.head?_eq_none_iff] at hheads
        rw [hheads]
        rfl
      | cons c left =>
        rw [hleft, List.head?_cons, List.head?_eq_some_iff] at hheads
        obtain ⟨left', hleft'⟩ := hheads
        rw [hleft] at hmark
        rw [hleft']
        by_cases hc : mark = c
        · rw [after?, if_pos hc] at hmark
          cases hmark
        · rw [after?, if_neg hc]
    rw [Declaration.atMark, hmark']
    exact hown rest' hhead

theorem local_pure (a : α) : Local fun text => some (a, text) := by
  intro text b rest h
  cases h
  exact ⟨[], rfl, fun rest' _ => rfl⟩

end

/-! ### The parts -/

theorem local_after? (lead : List Char) : Local (passing (after? lead)) := by
  intro text a rest h
  obtain ⟨rest, hrest, heq⟩ := Option.map_eq_some_iff.1 h
  cases heq
  refine ⟨lead, (append_of_after? hrest).symm, fun rest' _ => ?_⟩
  rw [passing, after?_append]
  rfl

theorem local_one? (belongs : Char → Bool) : Local (passing (one? belongs)) := by
  intro text a rest h
  obtain ⟨rest, hrest, heq⟩ := Option.map_eq_some_iff.1 h
  cases heq
  cases text with
  | nil => cases hrest
  | cons c text =>
    rw [one?] at hrest
    split at hrest
    · next hc =>
      cases hrest
      refine ⟨[c], rfl, fun rest' _ => ?_⟩
      rw [passing, List.singleton_append, one?, if_pos hc]
      rfl
    · cases hrest

/-- What a class of characters leaves does not begin with one of them. -/
theorem eq_false_of_mem_head?_dropWhile {belongs : Char → Bool} {text rest' : List Char}
    (h : rest'.head? = (text.dropWhile belongs).head?) : ∀ c ∈ rest'.head?, belongs c = false := by
  intro c hc
  rw [h] at hc
  have hne : text.dropWhile belongs ≠ [] := by
    rintro hnil
    rw [hnil] at hc
    cases hc
  have hhead := List.head_dropWhile_not belongs hne
  rw [List.head?_eq_some_head hne, Option.mem_some_iff] at hc
  rwa [hc] at hhead

theorem local_run? (belongs : Char → Bool) : Local (run? belongs) := by
  intro text found rest h
  rw [run?] at h
  split at h
  · cases h
  · next hne =>
    cases h
    refine ⟨text.takeWhile belongs, List.takeWhile_append_dropWhile.symm, fun rest' hhead => ?_⟩
    exact run?_append hne (fun c hc => List.mem_takeWhile_imp hc)
      (eq_false_of_mem_head?_dropWhile hhead)

theorem local_skipBlanks : Local (passing fun text => some (skipBlanks text)) := by
  intro text a rest h
  cases h
  refine ⟨text.takeWhile isBlank, List.takeWhile_append_dropWhile.symm, fun rest' hhead => ?_⟩
  have hblank : ∀ c ∈ text.takeWhile isBlank, isBlank c = true :=
    fun c hc => List.mem_takeWhile_imp hc
  have hskip : skipBlanks rest' = rest' := by
    cases rest' with
    | nil => rfl
    | cons c rest' => exact skipBlanks_cons (eq_false_of_mem_head?_dropWhile hhead c rfl) rest'
  rw [passing, Option.map_some, skipBlanks, List.dropWhile_append_of_pos hblank]
  exact congrArg (fun rest => some ((), rest)) hskip

theorem local_skipBlank? : Local (passing skipBlank?) := by
  have hchain : passing skipBlank? =
      andThen (passing (one? isBlank)) fun _ => passing fun text => some (skipBlanks text) := by
    funext text
    cases text with
    | nil => rfl
    | cons c text =>
      rw [passing, skipBlank?, andThen, passing, one?]
      split <;> rfl
  rw [hchain]
  exact (local_one? isBlank).andThen fun _ => local_skipBlanks

theorem local_mark? (mark : List Char) : Local (passing (mark? mark)) :=
  local_skipBlanks.andThen fun _ => local_after? mark

theorem local_word? : Local word? :=
  local_run? isWordChar

theorem local_skipTypeToEquals? : Local (passing skipTypeToEquals?) := by
  have hchain : passing skipTypeToEquals? =
      atMark ':' (andThen (run? (· ≠ '=')) fun _ => passing (after? ['=']))
        (passing (after? ['='])) := by
    funext text
    rw [passing, skipTypeToEquals?, atMark]
    cases after? [':'] text with
    | none => rfl
    | some type =>
      simp only [andThen, passing, Option.bind_eq_bind, Option.map_bind]
      rfl
  rw [hchain]
  exact ((local_run? _).andThen fun _ => local_after? ['=']).atMark (local_after? ['='])

theorem local_param? : Local param? := by
  have hchain : param? =
      atMark '(' (andThen (passing fun text => some (skipBlanks text)) fun _ =>
        andThen word? fun param => andThen (passing (mark? [')'])) fun _ text =>
          some (param, text)) word? := by
    funext text
    rw [param?, atMark]
    cases after? ['('] text with
    | none => rfl
    | some inside =>
      simp only [andThen, passing, Option.bind_eq_bind, Option.map_some, Option.bind_some,
        Option.bind_map]
      rfl
  rw [hchain]
  exact (local_skipBlanks.andThen fun _ => local_word?.andThen fun param =>
    (local_mark? [')']).andThen fun _ => local_pure param).atMark local_word?

/-! ### Headers -/

/-- A header up to its last bracket: the binding, the table name and the name of the builders. -/
def headerFront? : List Char → Option ((List Char × List Char × List Char) × List Char) :=
  andThen (passing (after? "export".toList)) fun _ =>
  andThen (passing skipBlank?) fun _ =>
  andThen (passing (after? "const".toList)) fun _ =>
  andThen (passing skipBlank?) fun _ =>
  andThen word? fun binding =>
  andThen (passing fun text => some (skipBlanks text)) fun _ =>
  andThen (passing skipTypeToEquals?) fun _ =>
  andThen (passing (mark? "pgTable".toList)) fun _ =>
  andThen (passing (mark? ['('])) fun _ =>
  andThen (passing fun text => some (skipBlanks text)) fun _ =>
  andThen (passing (one? isNameQuote)) fun _ =>
  andThen (run? fun c => !isNameQuote c) fun tableName =>
  andThen (passing (one? isNameQuote)) fun _ =>
  andThen (passing (mark? [','])) fun _ =>
  andThen (passing fun text => some (skipBlanks text)) fun _ =>
  andThen param? fun param =>
  andThen (passing (mark? "=>".toList)) fun _ =>
  andThen (passing (mark? ['('])) fun _ text =>
    some ((binding, tableName, param), text)

theorem local_headerFront? : Local headerFront? :=
  (local_after? _).andThen fun _ => local_skipBlank?.andThen fun _ =>
  (local_after? _).andThen fun _ => local_skipBlank?.andThen fun _ =>
  local_word?.andThen fun _ => local_skipBlanks.andThen fun _ =>
  local_skipTypeToEquals?.andThen fun _ => (local_mark? _).andThen fun _ =>
  (local_mark? _).andThen fun _ => local_skipBlanks.andThen fun _ =>
  (local_one? _).andThen fun _ => (local_run? _).andThen fun _ =>
  (local_one? _).andThen fun _ => (local_mark? _).andThen fun _ =>
  local_skipBlanks.andThen fun _ => local_param?.andThen fun _ =>
  (local_mark? _).andThen fun _ => (local_mark? _).andThen fun _ => local_pure _

theorem header?_eq (text : List Char) :
    header? text = (headerFront? text).bind fun found =>
      (mark? ['\x7b'] found.2).map fun rest =>
        ⟨found.1.1, found.1.2.1, found.1.2.2, rest⟩ := by
  simp only [header?, headerFront?, andThen, passing, Option.bind_eq_bind, Option.bind_assoc,
    Option.bind_some, Option.pure_def, Option.map_eq_bind, Function.comp_def]

/-- Behind a mark anything may stand. -/
theorem exists_append_of_mark? {c : Char} (hc : isBlank c = false) {text rest : List Char}
    (h : mark? [c] text = some rest) :
    ∃ own, own ≠ [] ∧ text = own ++ rest ∧ ∀ rest', mark? [c] (own ++ rest') = some rest' := by
  have hskip : c :: rest = skipBlanks text := append_of_after? h
  refine ⟨text.takeWhile isBlank ++ [c], by simp, ?_, fun rest' => ?_⟩
  · rw [List.append_assoc, List.singleton_append, hskip]
    exact List.takeWhile_append_dropWhile.symm
  · have hblank : ∀ d ∈ text.takeWhile isBlank, isBlank d = true :=
      fun d hd => List.mem_takeWhile_imp hd
    rw [mark?, List.append_assoc, List.singleton_append, skipBlanks,
      List.dropWhile_append_of_pos hblank, ← skipBlanks, skipBlanks_cons hc]
    exact after?_append [c] rest'

/-- **A header is read from its own text**: what stands behind its last bracket may be
exchanged. -/
theorem header?_exchange {text : List Char} {header : Header} (h : header? text = some header) :
    ∃ own, text = own ++ header.rest ∧
      ∀ rest, header? (own ++ rest) = some { header with rest := rest } := by
  rw [header?_eq] at h
  obtain ⟨⟨parts, mid⟩, hfront, hmark⟩ := Option.bind_eq_some_iff.1 h
  obtain ⟨left, hleft, rfl⟩ := Option.map_eq_some_iff.1 hmark
  obtain ⟨own, rfl, hown⟩ := local_headerFront? text parts mid hfront
  obtain ⟨last, hne, rfl, hlast⟩ := exists_append_of_mark? (by decide) hleft
  refine ⟨own ++ last, (List.append_assoc ..).symm, fun rest => ?_⟩
  -- the last bracket stands behind the front in either text
  have hhead : (last ++ rest).head? = (last ++ left).head? := by
    obtain ⟨c, last, rfl⟩ := List.exists_cons_of_ne_nil hne
    rfl
  rw [List.append_assoc, header?_eq, hown _ hhead, Option.bind_some, hlast]
  rfl

end SchemaForge.Declaration
