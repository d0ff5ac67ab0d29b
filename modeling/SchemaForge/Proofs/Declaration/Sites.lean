import SchemaForge.Proofs.Declaration.Agreement

/-!
# Where entries stand

Blanks and comments may stand in front of an entry.  A scanner takes the entry to start at the first
character that is no blank of ASCII, while its text is trimmed of the blanks of every script.  So
the place that is reported of an entry is that of its text, unless there is a gap between the two:
blanks and comments of which the first is a blank outside ASCII, or a vertical tab.

## Main definitions

* `Site` — the parts of a text around an entry.
* `Site.IsIn` — the parts make up the text, and are what they are for the entry.
* `Site.IsReported` — what a reported place and a quoted text say of the entry.
* `Mode.Reports` — what a reader reports.

## Main results

* `exists_site_of_mem_entries` — every entry of an object has a site.
* `cause_of_mem_skipped` — what is left out is a header or an entry.
* `reported_places` — **places are reported up to the gap in front of an entry.**
* `gap_moves_report` — a gap that moves a report to another line.
-/

namespace SchemaForge.Text

theorem exists_blankWordsFrom_cons (c : Char) (word text : List Char) :
    ∃ more words, blankWordsFrom (c :: word) text = (c :: more) :: words := by
  induction text generalizing word with
  | nil => exact ⟨word, [], rfl⟩
  | cons d text ih =>
    rw [blankWordsFrom]
    split
    · exact ⟨word, _, rfl⟩
    · exact ih _

/-- A text that starts with no blank starts with the same character when it is collapsed. -/
theorem head?_collapse {c : Char} (h : isBlank c = false) (text : List Char) :
    (collapse (c :: text)).head? = some c := by
  obtain ⟨more, words, hwords⟩ := exists_blankWordsFrom_cons c [] text
  have hblank : blankWords (c :: text) = (c :: more) :: words := by
    rw [blankWords, blankWordsFrom, if_neg (by simp [h])]
    exact hwords
  rw [collapse, hblank]
  cases words with
  | nil => rfl
  | cons word words => rw [List.intercalate_cons_cons]; rfl

/-- Blanks in front of a text are trimmed away. -/
theorem trim_append_of_isBlank {gap : List Char} (h : ∀ c ∈ gap, isBlank c = true)
    (text : List Char) : trim (gap ++ text) = trim text := by
  rw [trim, trim, trimStart, List.dropWhile_append_of_pos h, trimStart]

end SchemaForge.Text

namespace SchemaForge.Declaration

open Text

/-! ### The chunks of an entry -/

section

variable {cs group lead gap own : List Chunk} {k : Chunk} {p : Position} {e : Entry}

/-- A gap in front of a group makes no difference to its brackets and commas. -/
theorem isGroup_append_iff (h : ∀ k ∈ gap, k.isGap = true) :
    IsGroup 0 (gap ++ group) ↔ IsGroup 0 group := by
  have hdepth := depthThrough_of_isGap h 0
  have hbalanced : depthThrough 0 (gap ++ group) = depthThrough 0 group :=
    depthThrough_append hdepth group
  have hcommas : outerCommas 0 (gap ++ group) = outerCommas 0 group := by
    rw [outerCommas_append hdepth, outerCommas_of_isGap h, Nat.zero_add]
  constructor
  · intro hgroup
    exact ⟨hbalanced ▸ hgroup.balanced, hcommas ▸ hgroup.comma⟩
  · intro hgroup
    exact ⟨hbalanced.trans hgroup.balanced, hcommas.trans hgroup.comma⟩

/-- A filler in front of a group stands in a gap: it is no comma. -/
theorem IsGroup.isGap_of_isFiller (h : IsGroup 0 (k :: group)) (hended : k.isEnded = true)
    (hk : k.isFiller = true) : k.isGap = true := by
  have hblank := (h.of_isFiller hk).1
  cases k with
  | char c => exact hblank c (List.mem_singleton_self c)
  | comment t => exact hended
  | openComment t => cases hended
  | literal t => cases hk
  | openLiteral t => cases hk

/-- The parts of a group: fillers, a gap that starts with no filler, and the rest, which starts
with neither. -/
structure AreParts (lead gap own : List Chunk) : Prop where
  /-- Fillers that stand in a gap. -/
  fillers : ∀ k ∈ lead, k.isGap = true ∧ k.isFiller = true
  /-- The rest of that gap. -/
  gaps : ∀ k ∈ gap, k.isGap = true
  /-- It starts with no filler. -/
  gap_head : ∀ k ∈ gap.head?, k.isFiller = false
  /-- The rest starts with what stands in no gap. -/
  own_head : ∃ k ∈ own.head?, k.isGap = false ∧ k.isFiller = false

theorem exists_areParts (h : IsGroup 0 group) (hended : AreEnded group)
    (hink : ∃ k ∈ group, k.isGap = false) :
    ∃ lead gap own, group = lead ++ (gap ++ own) ∧ AreParts lead gap own := by
  have hfront : ∀ k ∈ group.takeWhile Chunk.isGap, k.isGap = true := fun _ =>
    List.mem_takeWhile_imp
  have hparts := List.takeWhile_append_dropWhile (p := Chunk.isGap) (l := group)
  have hfrontParts := List.takeWhile_append_dropWhile (p := Chunk.isFiller)
    (l := group.takeWhile Chunk.isGap)
  refine ⟨(group.takeWhile Chunk.isGap).takeWhile Chunk.isFiller,
    (group.takeWhile Chunk.isGap).dropWhile Chunk.isFiller, group.dropWhile Chunk.isGap, ?_, ?_⟩
  · rw [← List.append_assoc, hfrontParts, hparts]
  constructor
  case fillers =>
    intro k hk
    exact ⟨hfront k (List.takeWhile_subset _ hk), List.mem_takeWhile_imp hk⟩
  case gaps =>
    intro k hk
    exact hfront k (List.dropWhile_subset _ hk)
  case gap_head =>
    intro k hk
    simpa [Option.mem_def.1 hk] using
      List.head?_dropWhile_not Chunk.isFiller (group.takeWhile Chunk.isGap)
  case own_head =>
    -- something is left, and is no filler since a filler in front of a group is a gap
    have hne : group.dropWhile Chunk.isGap ≠ [] := by
      intro hnil
      obtain ⟨k, hk, hkGap⟩ := hink
      rw [List.dropWhile_eq_nil_iff.1 hnil k hk] at hkGap
      cases hkGap
    obtain ⟨k, own, hown⟩ := List.exists_cons_of_ne_nil hne
    have hkGap : k.isGap = false := by
      have hhead := List.head?_dropWhile_not Chunk.isGap group
      rw [hown] at hhead
      simpa using hhead
    have hgroup : IsGroup 0 (k :: own) := by
      rw [← hown, ← isGroup_append_iff hfront, hparts]
      exact h
    have hkEnded : k.isEnded = true :=
      hended k (List.dropWhile_subset _ (hown ▸ List.mem_cons_self ..))
    refine ⟨k, by rw [hown]; rfl, hkGap, ?_⟩
    by_contra hfiller
    rw [hgroup.isGap_of_isFiller hkEnded (by simpa using hfiller)] at hkGap
    cases hkGap

theorem firstPosition?_append_of_isFiller (h : ∀ k ∈ lead, k.isFiller = true) (p : Position)
    (group : List Chunk) :
    firstPosition? p (lead ++ group) =
      firstPosition? (p.after (lead.flatMap Chunk.text)) group := by
  induction lead generalizing p with
  | nil => rfl
  | cons k lead ih =>
    obtain ⟨hk, hlead⟩ := List.forall_mem_cons.1 h
    rw [List.cons_append, firstPosition?, if_pos hk, ih hlead, List.flatMap_cons,
      Position.after_append]

theorem firstPosition?_of_head? (h : ∃ k ∈ group.head?, k.isFiller = false) (p : Position) :
    firstPosition? p group = some p := by
  obtain ⟨k, hk, hfiller⟩ := h
  obtain ⟨group, rfl⟩ := List.head?_eq_some_iff.1 hk
  rw [firstPosition?, if_neg (by simp [hfiller])]

/-- **An entry is placed behind its fillers**, and its text is that of what stands in no gap. -/
theorem AreParts.entryAt_eq_some (h : AreParts lead gap own)
    (he : entryAt p (lead ++ (gap ++ own)) = some e) :
    e.position = p.after (lead.flatMap Chunk.text) ∧
      e.text = trim (own.flatMap Chunk.bareText) := by
  have hposition := firstPosition?_of_entryAt he
  have hhead : ∃ k ∈ (gap ++ own).head?, k.isFiller = false := by
    cases hgap : gap with
    | nil =>
      obtain ⟨k, hk, -, hfiller⟩ := h.own_head
      exact ⟨k, hk, hfiller⟩
    | cons k gap => exact ⟨k, rfl, h.gap_head k (by rw [hgap]; rfl)⟩
  rw [firstPosition?_append_of_isFiller fun k hk => (h.fillers k hk).2,
    firstPosition?_of_head? hhead] at hposition
  have hblank : ∀ c ∈ (lead ++ gap).flatMap Chunk.bareText, isBlank c = true := by
    intro c hc
    obtain ⟨k, hk, hc⟩ := List.mem_flatMap.1 hc
    refine Chunk.isBlank_bareText_of_isGap ?_ c hc
    rcases List.mem_append.1 hk with hk | hk
    · exact (h.fillers k hk).1
    · exact h.gaps k hk
  have htext : trim ((lead ++ (gap ++ own)).flatMap Chunk.bareText) =
      trim (own.flatMap Chunk.bareText) := by
    rw [← List.append_assoc, List.flatMap_append, trim_append_of_isBlank hblank]
  refine ⟨(Option.some.inj hposition).symm, ?_⟩
  rw [entryAt, htext] at he
  split at he
  · cases he
  · cases he
    rfl
  · cases he

/-- A group of nothing but gaps is no entry. -/
theorem exists_not_isGap_of_entryAt (he : entryAt p group = some e) :
    ∃ k ∈ group, k.isGap = false := by
  by_contra hnone
  have hgap : ∀ k ∈ group, k.isGap = true := by
    intro k hk
    by_contra hkGap
    exact hnone ⟨k, hk, by simpa using hkGap⟩
  have hblank : ∀ c ∈ group.flatMap Chunk.bareText, isBlank c = true := by
    intro c hc
    obtain ⟨k, hk, hc⟩ := List.mem_flatMap.1 hc
    exact Chunk.isBlank_bareText_of_isGap (hgap k hk) c hc
  have htext : trim (group.flatMap Chunk.bareText) = [] := by
    rw [trim, trimStart, List.dropWhile_eq_nil_iff.2 hblank, trimEnd_nil]
  rw [entryAt, htext] at he
  cases he

/-- The text in front of a group that stands behind others. -/
def groupsBefore (groups : List (List Chunk)) : List Char :=
  groups.flatMap fun group => group.flatMap Chunk.text ++ [',']

/-- An entry is that of one of the groups. -/
theorem exists_of_mem_groupEntries {groups : List (List Chunk)} (he : e ∈ groupEntries p groups) :
    ∃ earlier group later, groups = earlier ++ group :: later ∧
      entryAt (p.after (groupsBefore earlier)) group = some e := by
  induction groups generalizing p with
  | nil => cases he
  | cons group groups ih =>
    rw [groupEntries, List.mem_append, Option.mem_toList] at he
    rcases he with he | he
    · exact ⟨[], group, groups, rfl, he⟩
    · obtain ⟨earlier, found, later, rfl, hentry⟩ := ih he
      refine ⟨group :: earlier, found, later, rfl, ?_⟩
      rw [groupsBefore, List.flatMap_cons, Position.after_append, Position.after_append]
      exact hentry

/-- In front of a group stands a comma, or nothing. -/
theorem getLast?_groupsBefore (groups : List (List Chunk)) :
    ∀ c ∈ (groupsBefore groups).getLast?, c = ',' := by
  rcases List.eq_nil_or_concat' groups with rfl | ⟨groups, group, rfl⟩
  · simp [groupsBefore]
  · simp [groupsBefore]

/-- Behind a group stands a comma, or nothing. -/
theorem exists_groupsText_eq (earlier : List (List Chunk)) (group : List Chunk)
    (later : List (List Chunk)) :
    ∃ back, groupsText (earlier ++ group :: later) =
        groupsBefore earlier ++ (group.flatMap Chunk.text ++ back) ∧
      ∀ c ∈ back.head?, c = ',' := by
  induction earlier with
  | nil =>
    cases later with
    | nil => exact ⟨[], by simp [groupsText, groupsBefore], by simp⟩
    | cons other later =>
      refine ⟨',' :: groupsText (other :: later), ?_, by simp⟩
      simp [groupsText, groupsBefore, List.intercalate_cons_cons]
  | cons first earlier ih =>
    obtain ⟨back, htext, hback⟩ := ih
    refine ⟨back, ?_, hback⟩
    obtain ⟨other, others, hothers⟩ := List.exists_cons_of_ne_nil
      (List.append_ne_nil_of_right_ne_nil earlier (List.cons_ne_nil group later))
    have hfirst : groupsText (first :: (earlier ++ group :: later)) =
        first.flatMap Chunk.text ++ ',' :: groupsText (earlier ++ group :: later) := by
      rw [hothers]
      simp [groupsText, List.intercalate_cons_cons]
    rw [List.cons_append, hfirst, htext]
    simp [groupsBefore]

end

/-! ### Sites -/

/-- The parts of a text around an entry. -/
structure Site where
  /-- What stands in front of it, up to the bracket or the comma that it follows. -/
  before : List Char
  /-- The fillers behind that. -/
  lead : List Char
  /-- The gap behind the fillers. -/
  gap : List Char
  /-- The entry itself. -/
  own : List Char
  /-- What stands behind it, from the comma or the bracket on. -/
  behind : List Char

namespace Site

/-- The text in front of the entry itself. -/
def front (s : Site) : List Char :=
  s.before ++ s.lead ++ s.gap

/-- The parts make up a text, and are what they are for an entry. -/
structure IsIn (s : Site) (whole : List Char) : Prop where
  /-- The parts make up the text. -/
  text : whole = s.front ++ (s.own ++ s.behind)
  /-- In front of the entry stands a bracket that opens, or a comma. -/
  before : ∃ c ∈ s.before.getLast?, c = ',' ∨ isOpening c = true
  /-- Behind the entry stands a comma, or a bracket that closes. -/
  behind : ∃ c ∈ s.behind.head?, c = ',' ∨ isClosing c = true
  /-- The parts of the entry are cut into chunks by themselves. -/
  apart : chunks (s.lead ++ (s.gap ++ s.own)) = chunks s.lead ++ (chunks s.gap ++ chunks s.own)
  /-- The fillers are comments and blanks of ASCII, the gap behind them starts with neither, and
  the entry starts with what stands in no gap. -/
  parts : AreParts (chunks s.lead) (chunks s.gap) (chunks s.own)
  /-- So a gap starts with a blank, and with none of ASCII. -/
  gap_head : ∀ c ∈ s.gap.head?, isBlank c = true ∧ isAsciiBlank c = false
  /-- The entry is balanced, with no comma outside its brackets. -/
  group : IsGroup 0 (chunks s.own)

/-- What a reported place and a quoted text say of the entry at a site. -/
structure IsReported (s : Site) (place : Position) (quoted : List Char) : Prop where
  /-- The place is that behind the fillers. -/
  place_eq : place = placeBehind (s.before ++ s.lead)
  /-- It is that of the entry exactly when there is no gap. -/
  place_iff : place = placeBehind s.front ↔ s.gap = []
  /-- Its line is that of the entry exactly when the gap has no line feed. -/
  line_iff : place.line = (placeBehind s.front).line ↔ '\n' ∉ s.gap
  /-- The quoted text starts as the entry does, with no blank. -/
  head : ∃ c ∈ s.own.head?, quoted.head? = some c ∧ isBlank c = false

/-- What is placed behind the fillers of a site is reported of it. -/
theorem isReported_of_head? (s : Site) {quoted : List Char}
    (h : ∃ c ∈ s.own.head?, quoted.head? = some c ∧ isBlank c = false) :
    s.IsReported (placeBehind (s.before ++ s.lead)) quoted := by
  constructor
  case place_eq => rfl
  case place_iff => exact placeBehind_eq_append_iff
  case line_iff => exact line_placeBehind_eq_append_iff
  case head => exact h

end Site

section

variable {text lead gap own front rest t : List Char} {inside behind : List Chunk} {p : Position}
  {e : Entry} {c : Char}

/-- What stands in no gap starts with no blank. -/
theorem isBlank_eq_false_of_head? (hchunk : ∃ k ∈ (chunks (c :: t)).head?, k.isGap = false) :
    isBlank c = false := by
  by_contra hblank
  rw [Bool.not_eq_false] at hblank
  obtain ⟨k, hk, hgap⟩ := hchunk
  rw [chunks_cons_of_isOuter (isOuter_of_isBlank hblank)] at hk
  obtain rfl := Option.some.inj hk
  rw [Chunk.isGap, hblank] at hgap
  cases hgap

/-- The text of an entry starts as the entry does: with no blank and no comment. -/
theorem exists_head?_trim {text : List Char} (hended : AreEnded (chunks text))
    (hchunk : ∃ k ∈ (chunks text).head?, k.isGap = false) :
    ∃ c t own, text = c :: own ∧ trim (withoutComments text) = c :: t ∧ isBlank c = false := by
  cases text with
  | nil => simp at hchunk
  | cons c own =>
    have hc := isBlank_eq_false_of_head? hchunk
    obtain ⟨k, hk, hgap⟩ := hchunk
    rw [chunks_cons] at hk hended
    obtain rfl := Option.some.inj hk
    have hbare : (chunk c own).1.bareText = (chunk c own).1.text := by
      have hkEnded := hended _ (List.mem_cons_self ..)
      cases hkind : (chunk c own).1 with
      | comment t =>
        rw [hkind] at hgap hkEnded
        rw [Chunk.isGap, hkEnded] at hgap
        cases hgap
      | openComment t =>
        rw [hkind] at hkEnded
        cases hkEnded
      | _ => rfl
    obtain ⟨t, ht⟩ := exists_text_chunk c own
    refine ⟨c, trimEnd (t ++ withoutComments (chunk c own).2), own, rfl, ?_, hc⟩
    rw [withoutComments_cons, hbare, ht, trim, trimStart, List.cons_append,
      List.dropWhile_cons_of_neg (by simp [hc]), trimEnd_cons_of_not_isBlank hc]

/-- The text of a gap that starts with no filler starts with a blank, and with none of ASCII. -/
theorem AreParts.isBlank_of_mem_head? (h : AreParts (chunks lead) (chunks gap) (chunks own)) :
    ∀ c ∈ gap.head?, isBlank c = true ∧ isAsciiBlank c = false := by
  intro c hc
  obtain ⟨gap, rfl⟩ := List.head?_eq_some_iff.1 hc
  rw [chunks_cons] at h
  obtain ⟨t, ht⟩ := exists_text_chunk c gap
  have hgap := h.gaps _ (List.mem_cons_self ..)
  have hfiller := h.gap_head _ rfl
  -- a comment would be a filler, and a literal would stand in no gap
  cases hchunk : (chunk c gap).1 with
  | char d =>
    rw [hchunk] at ht hgap hfiller
    obtain rfl : d = c := (List.cons.inj ht).1
    exact ⟨hgap, (Bool.or_eq_false_iff.1 hfiller).1⟩
  | _ =>
    rw [hchunk] at hgap hfiller
    first
      | cases hgap
      | cases hfiller

/-- **An entry of closed text has parts** in the text, and is placed behind its fillers. -/
theorem exists_parts_of_mem_entries (hclosed : IsClosed text)
    (he : e ∈ entries p (chunks text)) :
    ∃ before lead gap own back, text = before ++ (lead ++ (gap ++ own)) ++ back ∧
      (∀ c ∈ before.getLast?, c = ',') ∧ (∀ c ∈ back.head?, c = ',') ∧
      chunks (lead ++ (gap ++ own)) = chunks lead ++ (chunks gap ++ chunks own) ∧
      AreParts (chunks lead) (chunks gap) (chunks own) ∧ IsGroup 0 (chunks own) ∧
      AreEnded (chunks own) ∧
      e.position = p.after (before ++ lead) ∧ e.text = trim (withoutComments own) := by
  obtain ⟨earlier, group, later, hgroups, hentry⟩ := exists_of_mem_groupEntries he
  obtain ⟨hpiece, hgroup⟩ := isGroup_of_mem_splitCommas hclosed.balanced
    (hgroups ▸ List.mem_append_right earlier (List.mem_cons_self ..))
  have hended : AreEnded group := fun k hk => hclosed.ended k (hpiece.subset hk)
  obtain ⟨lead, gap, own, rfl, hparts⟩ :=
    exists_areParts hgroup hended (exists_not_isGap_of_entryAt hentry)
  obtain ⟨hposition, htext⟩ := hparts.entryAt_eq_some hentry
  -- each part is cut into chunks by itself
  have hpart : ∀ cs, cs <:+: lead ++ (gap ++ own) → chunks (cs.flatMap Chunk.text) = cs :=
    fun cs hcs => chunks_flatMap_text_of_isInfix (hcs.trans hpiece)
  have hlead := hpart lead (List.prefix_append lead _).isInfix
  have hgap := hpart gap ((List.prefix_append gap own).isInfix.trans
    (List.suffix_append lead _).isInfix)
  have hown := hpart own ((List.suffix_append gap own).trans (List.suffix_append lead _)).isInfix
  have hwhole := hpart _ List.infix_rfl
  obtain ⟨back, hback, hcomma⟩ := exists_groupsText_eq earlier (lead ++ (gap ++ own)) later
  rw [← hgroups, groupsText_splitCommas, chunks_flatMap_text] at hback
  refine ⟨groupsBefore earlier, lead.flatMap Chunk.text, gap.flatMap Chunk.text,
    own.flatMap Chunk.text, back, ?_, getLast?_groupsBefore earlier, hcomma, ?_, ?_, ?_, ?_, ?_, ?_⟩
  · rw [hback]
    simp
  · rw [← List.flatMap_append, ← List.flatMap_append, hwhole, hlead, hgap, hown]
  · rwa [hlead, hgap, hown]
  · rw [hown]
    rwa [isGroup_append_iff fun k hk => (hparts.fillers k hk).1, isGroup_append_iff hparts.gaps]
      at hgroup
  · rw [hown]
    exact fun k hk => hended k (List.mem_append_right lead (List.mem_append_right gap hk))
  · rw [hposition, Position.after_append]
  · rw [htext, withoutComments, hown]

/-- **Every entry of an object has a site** inside the object, and is reported as it stands
there. -/
theorem exists_site_of_mem_entries (hsplit : splitClosing 0 (chunks rest) = some (inside, behind))
    (hopening : ∃ b ∈ front.getLast?, isOpening b = true)
    (he : e ∈ entries (placeBehind front) inside) :
    ∃ s : Site, s.IsIn (front ++ rest) ∧ s.IsReported e.position e.text ∧
      e.text = trim (withoutComments s.own) ∧ front <+: s.before ∧
      s.front ++ s.own <+: front ++ inside.flatMap Chunk.text := by
  obtain ⟨close, hclose, hrest⟩ := exists_text_of_splitClosing hsplit
  obtain ⟨hclosed, hchunks⟩ := isClosed_of_splitClosing hsplit
  rw [← hchunks] at he
  obtain ⟨before, lead, gap, own, back, htext, hbefore, hback, hapart, hparts, hgroup, hended,
    hposition, hquoted⟩ := exists_parts_of_mem_entries hclosed he
  let s : Site :=
    { before := front ++ before
      lead := lead
      gap := gap
      own := own
      behind := back ++ close :: behind.flatMap Chunk.text }
  have hhead : ∃ k ∈ (chunks own).head?, k.isGap = false := by
    obtain ⟨k, hk, hgap, -⟩ := hparts.own_head
    exact ⟨k, hk, hgap⟩
  obtain ⟨c, t, later, hown, htrim, hblank⟩ := exists_head?_trim hended hhead
  have hplace : e.position = placeBehind (s.before ++ s.lead) := by
    rw [hposition, placeBehind_after, ← List.append_assoc]
  have hquotedHead : ∃ c ∈ s.own.head?, e.text.head? = some c ∧ isBlank c = false := by
    refine ⟨c, ?_, ?_, hblank⟩
    · show own.head? = some c
      rw [hown]
      rfl
    · rw [hquoted, htrim]
      rfl
  refine ⟨s, ?_, hplace ▸ s.isReported_of_head? hquotedHead, hquoted, List.prefix_append .., ?_⟩
  · constructor
    case text =>
      rw [hrest, htext]
      simp [s, Site.front]
    case before =>
      obtain ⟨b, hb, hopen⟩ := hopening
      cases hlast : before.getLast? with
      | none => exact ⟨b, by simpa [s, List.getLast?_eq_none_iff.1 hlast] using hb, .inr hopen⟩
      | some c => exact ⟨c, by simp [s, hlast], .inl (hbefore c hlast)⟩
    case behind =>
      cases back with
      | nil => exact ⟨close, rfl, .inr hclose⟩
      | cons c back => exact ⟨c, rfl, .inl (hback c rfl)⟩
    case apart => exact hapart
    case parts => exact hparts
    case gap_head => exact hparts.isBlank_of_mem_head?
    case group => exact hgroup
  · refine ⟨back, ?_⟩
    rw [htext]
    simp [s, Site.front]

end

/-! ### What is left out -/

section

variable {whole : List Char} {m : Match} {u : Unread}

/-- A header starts with the first letter of its first word. -/
theorem Match.head?_text (hm : m ∈ headerMatches whole) : m.text.head? = some 'e' := by
  have hheader := header?_of_mem_headerMatches hm
  have hin := Match.isIn_of_mem_headerMatches m hm
  obtain ⟨own, hown, -⟩ := hin.exists_own hheader
  have hne : m.text ≠ [] := by
    rw [hown]
    exact List.concat_ne_nil '\x7b' own
  obtain ⟨c, text, htext⟩ := List.exists_cons_of_ne_nil hne
  have hword : ∃ b, "export".toList ++ [b] <+: whole.drop m.start := by
    by_contra hnone
    rw [header?_eq_none fun b _ hb => hnone ⟨b, hb⟩] at hheader
    cases hheader
  obtain ⟨b, later, hlater⟩ := hword
  rw [hin.text, htext] at hlater
  have hc : 'e' = c := (List.cons.inj hlater).1
  rw [htext, ← hc]
  rfl

/-- A header stands between what is in front of it and what it leaves. -/
theorem Match.IsIn.whole_eq (h : m.IsIn whole) :
    whole = whole.take m.start ++ (m.text ++ m.header.rest) := by
  rw [← h.text, List.take_append_drop]

theorem Match.IsIn.position_eq (h : m.IsIn whole) :
    m.position = placeBehind (whole.take m.start) := by
  rw [h.position, positionAt, after_start]

/-- In front of what a header leaves stands the brace that opens its object. -/
theorem Match.IsIn.exists_front (h : m.IsIn whole)
    (hheader : header? (whole.drop m.start) = some m.header) :
    ∃ front, whole = front ++ m.header.rest ∧ (∃ b ∈ front.getLast?, isOpening b = true) ∧
      m.bodyPosition = placeBehind front := by
  obtain ⟨own, hown, hwhole⟩ := h.exists_own hheader
  refine ⟨whole.take m.start ++ m.text, ?_, ⟨'\x7b', ?_, rfl⟩, ?_⟩
  · rw [List.append_assoc, ← h.whole_eq]
  · simp [hown]
  · rw [Match.bodyPosition, h.position_eq, placeBehind_after]

/-- **What is left out is a header whose object is never closed, or an entry** of an object. -/
theorem cause_of_mem_skipped (h : u ∈ (DeclaredTables.ofText whole).skipped) :
    ∃ m ∈ headerMatches whole, u = m.unterminated ∨ ∃ inside behind,
      splitClosing 0 (chunks m.header.rest) = some (inside, behind) ∧
        ∃ e ∈ entries m.bodyPosition inside, u = m.unrecognised e := by
  obtain ⟨r, hr, hu⟩ := List.mem_flatMap.1 h
  obtain ⟨m, hm, rfl | ⟨inside, behind, hsplit, rfl⟩⟩ := exists_match_of_mem_readingsFrom hr
  · exact ⟨m, hm, .inl (List.mem_singleton.1 hu)⟩
  · obtain ⟨e, he, hunread⟩ := List.mem_filterMap.1 hu
    refine ⟨m, hm, .inr ⟨inside, behind, hsplit, e, he, ?_⟩⟩
    split at hunread
    · cases hunread
    · exact (Option.some.inj hunread).symm

/-- A reader reports what it leaves out, or stops at. -/
def Mode.Reports (mode : Mode) (source : String) (u : Unread) : Prop :=
  DeclaredTables.ofSource mode source = .error u ∨
    ∃ declared, DeclaredTables.ofSource mode source = .ok declared ∧ u ∈ declared.skipped

theorem Mode.Reports.mem_skipped {mode : Mode} {source : String} (h : mode.Reports source u) :
    u ∈ (DeclaredTables.ofText source.toList).skipped := by
  rcases h with h | ⟨declared, hread, h⟩
  · exact DeclaredTables.mem_skipped_of_error h
  · rwa [DeclaredTables.eq_ofText_of_ofSource hread] at h

/-- What is quoted of an entry starts as the entry does, with or without all of its blanks. -/
theorem Site.IsReported.collapse {s : Site} {place : Position} {quoted : List Char}
    (h : s.IsReported place quoted) : s.IsReported place (Text.collapse quoted) := by
  obtain ⟨c, hc, hquoted, hblank⟩ := h.head
  obtain ⟨quoted, rfl⟩ := List.head?_eq_some_iff.1 hquoted
  exact ⟨h.place_eq, h.place_iff, h.line_iff, c, hc, head?_collapse hblank quoted, hblank⟩

end

/-! ### Places -/

/-- What stands between two brackets is scanned for entries, from the place behind the first. -/
theorem exists_entries_of_findClosing {whole : List Char} {opening closing : Nat} {b : UInt8}
    (hb : (utf8 whole)[opening]? = some b) (hopen : isOpening (byteChar b) = true)
    (hclosing : findClosing whole opening = .ok (some closing)) :
    ∃ front rest inside behind, whole = front ++ rest ∧
      (∃ c ∈ front.getLast?, isOpening c = true) ∧ byteSize front = opening + 1 ∧
      splitClosing 0 (chunks rest) = some (inside, behind) ∧
      byteSize (front ++ inside.flatMap Chunk.text) = closing ∧
      ∀ fallbacks, splitEntries fallbacks whole (opening + 1) closing =
        .ok (entries (placeBehind front) inside) := by
  have hbyte : b.toNat < 128 := by
    rw [← toNat_byteChar]
    exact lt_of_isOpening hopen
  obtain ⟨front, rest, rfl, rfl⟩ := exists_of_getElem?_utf8 hb hbyte
  rw [findClosing_eq hopen] at hclosing
  obtain ⟨⟨inside, behind⟩, hsplit, rfl⟩ := Option.map_eq_some_iff.1 (Except.ok.inj hclosing)
  obtain ⟨c, hclose, hrest⟩ := exists_text_of_splitClosing hsplit
  obtain ⟨hclosed, hchunks⟩ := isClosed_of_splitClosing hsplit
  have hsize := byteSize_concat_of_lt (lt_of_isOpening hopen) front
  have hend := byteSize_append (front ++ [byteChar b]) (inside.flatMap Chunk.text)
  refine ⟨front ++ [byteChar b], rest, inside, behind, ?_, ?_, hsize, hsplit, hend, ?_⟩
  · rw [List.append_assoc, List.singleton_append]
  · exact ⟨byteChar b, List.getLast?_concat, hopen⟩
  · intro fallbacks
    have hentries := splitEntries_eq fallbacks (front ++ [byteChar b])
      (breaksSlash_of_isClosing hclose (behind.flatMap Chunk.text)) hclosed
    rwa [← hrest, hsize, hend, hchunks, List.append_assoc, List.singleton_append] at hentries

/-- **Places are reported up to the gap in front of an entry.**  Whatever stands between two
brackets, and whatever a reader of either kind leaves out or stops at: the text that is quoted of an
entry starts with the first character of the entry, and the place is that of this character exactly
when there is no gap of blanks outside ASCII in front of it; the line is right as long as no line
ends in the gap.  A header is reported at its own place. -/
theorem reported_places (source : String) :
    (∀ opening b closing, (utf8 source.toList)[opening]? = some b → isOpening (byteChar b) = true →
      findClosing source.toList opening = .ok (some closing) →
      ∃ es, (∀ fallbacks, splitEntries fallbacks source.toList (opening + 1) closing = .ok es) ∧
        ∀ e ∈ es, ∃ s : Site, s.IsIn source.toList ∧ s.IsReported e.position e.text ∧
          e.text = trim (withoutComments s.own) ∧
          opening < byteSize s.before ∧ byteSize (s.front ++ s.own) ≤ closing) ∧
    ∀ (mode : Mode) (u : Unread), mode.Reports source u →
      (∃ m ∈ headerMatches source.toList, ∃ front,
        source.toList = front ++ (m.text ++ m.header.rest) ∧ m.text.head? = some 'e' ∧
          u.position = placeBehind front ∧ u.text.toList = collapse m.text) ∨
      ∃ s : Site, s.IsIn source.toList ∧ s.IsReported u.position u.text.toList ∧
        u.text.toList = collapse (trim (withoutComments s.own)) := by
  constructor
  · intro opening b closing hb hopen hclosing
    obtain ⟨front, rest, inside, behind, htext, hfront, hsize, hsplit, hend, hentries⟩ :=
      exists_entries_of_findClosing hb hopen hclosing
    refine ⟨_, hentries, fun e he => ?_⟩
    obtain ⟨s, hin, hreported, hquoted, hbefore, hown⟩ :=
      exists_site_of_mem_entries hsplit hfront he
    have hstart := byteSize_le_of_isPrefix hbefore
    have hstop := byteSize_le_of_isPrefix hown
    exact ⟨s, htext ▸ hin, hreported, hquoted, by omega, by omega⟩
  · intro mode u hu
    obtain ⟨m, hm, rfl | ⟨inside, behind, hsplit, e, he, rfl⟩⟩ :=
      cause_of_mem_skipped hu.mem_skipped
    · have hin := Match.isIn_of_mem_headerMatches m hm
      exact .inl ⟨m, hm, _, hin.whole_eq, Match.head?_text hm, hin.position_eq,
        String.toList_ofList⟩
    · have hin := Match.isIn_of_mem_headerMatches m hm
      obtain ⟨front, htext, hfront, hplace⟩ := hin.exists_front (header?_of_mem_headerMatches hm)
      rw [hplace] at he
      obtain ⟨s, hsite, hreported, hquoted, -, -⟩ := exists_site_of_mem_entries hsplit hfront he
      have hunread : (m.unrecognised e).text.toList = collapse e.text := String.toList_ofList
      refine .inr ⟨s, htext ▸ hsite, ?_, ?_⟩
      · rw [hunread]
        exact hreported.collapse
      · rw [hunread, hquoted]

/-- An entry behind a line with a blank that does not break. -/
def gapSource : String :=
  "export const user = pgTable(\"user\", (t) => (\x7b\n\u00a0\n  oops,\n\x7d))\n"

theorem reported_places_sample :
    let piece : Unread := ⟨.unrecognised, "user", ⟨2, 1⟩, "oops"⟩
    (utf8 gapSource.toList)[44]? = some 123 ∧ isOpening (byteChar 123) = true ∧
      findClosing gapSource.toList 44 = .ok (some 57) ∧ Mode.strict.Reports gapSource piece ∧
      (∃ es, (∀ fallbacks, splitEntries fallbacks gapSource.toList 45 57 = .ok es) ∧
        ∀ e ∈ es, ∃ s : Site, s.IsIn gapSource.toList ∧ s.IsReported e.position e.text) ∧
      ∃ s : Site, s.IsIn gapSource.toList ∧ s.IsReported ⟨2, 1⟩ "oops".toList := by
  intro piece
  have hfirst : (utf8 gapSource.toList)[44]? = some 123 := by decide
  have hopen : isOpening (byteChar 123) = true := by decide
  have hclosing : findClosing gapSource.toList 44 = .ok (some 57) := by decide +kernel
  have hreports : Mode.strict.Reports gapSource piece := .inl (by decide +kernel)
  obtain ⟨hscanned, hread⟩ := reported_places gapSource
  obtain ⟨es, hes, hsites⟩ := hscanned 44 123 57 hfirst hopen hclosing
  refine ⟨hfirst, hopen, hclosing, hreports, ⟨es, hes, fun e he => ?_⟩, ?_⟩
  · obtain ⟨s, hin, hreported, -⟩ := hsites e he
    exact ⟨s, hin, hreported⟩
  · rcases hread .strict piece hreports with ⟨m, -, -, -, hhead, -, htext⟩ | ⟨s, hin, hreported, -⟩
    · -- the piece starts with another letter than a header
      obtain ⟨text, hm⟩ := List.head?_eq_some_iff.1 hhead
      have hfirst : piece.text.toList.head? = some 'e' := by
        rw [htext, hm]
        exact head?_collapse (by decide) text
      exact absurd hfirst (by decide)
    · exact ⟨s, hin, hreported⟩

/-- **A gap moves a report to another line**: what is quoted stands on the third line, and the
second is reported, whichever the reader. -/
theorem gap_moves_report :
    let front : List Char :=
      "export const user = pgTable(\"user\", (t) => (\x7b\n\u00a0\n  ".toList
    let piece : Unread := ⟨.unrecognised, "user", ⟨2, 1⟩, "oops"⟩
    gapSource.toList = front ++ ("oops".toList ++ ",\n\x7d))\n".toList) ∧
      placeBehind front = ⟨3, 3⟩ ∧
      splitEntries .refused gapSource.toList 45 57 = .ok [⟨"oops".toList, ⟨2, 1⟩⟩] ∧
      DeclaredTables.ofSource .lenient gapSource =
        .ok ⟨[{ name := "user", tableName := "user", dialect := .drizzle, columns := [] }],
          [piece]⟩ ∧
      DeclaredTables.ofSource .strict gapSource = .error piece := by
  decide +kernel

end SchemaForge.Declaration
