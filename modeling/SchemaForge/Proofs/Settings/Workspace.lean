import Mathlib
import SchemaForge.Proofs.Path
import SchemaForge.Proofs.Text.Search
import SchemaForge.Run.Generate

/-!
# Schemas of the workspace package

A schema lies in the workspace package when the marker occurs in its path, and then the files of a
run go where the settings say for that package.  Marker and path are rows of segments with slashes
between them.  What is looked for is the text of the marker: its inner segments have to be segments
of the path, but its first may be the end of a longer one, and its last the beginning of one.  So a
package whose name ends like the marker begins, or begins like the marker ends, is taken for the
workspace package too.

## Main definitions

* `Settings.markerSegments`, `Path.segments` — what is looked for, and where.
* `Path.Leads`, `Path.Begins`, `Path.Spans` — how the segments of a part lie in those of a text.
* `Path.StandsApart` — what stands in front of a part and behind it ends at slashes.

## Main results

* `Path.isInfix_iff_spans` — a part of a text, by the segments of both.
* `Path.isInfix_splitSlash_iff` — whole segments are a part that stands apart.
* `workspace_marker_spans_segments` — **which schemas lie in the workspace package.**
* `siblings_lie_in_workspace` — packages of other names are taken for it.
-/

namespace SchemaForge

namespace Path

/-! ### A part of a text, by segments -/

/-- The segments stand in front of a row, but the last of them may be the beginning of a longer
one. -/
def Leads : List (List Char) → List (List Char) → Prop
  | [last], segment :: _ => last <+: segment
  | first :: part, segment :: segments => first = segment ∧ Leads part segments
  | _, _ => False

/-- The segments stand in front of a row, but the first of them may be the end of a longer one, and
the last the beginning of one. -/
def Begins : List (List Char) → List (List Char) → Prop
  | [only], segment :: _ => only <:+: segment
  | first :: part, segment :: segments => first <:+ segment ∧ Leads part segments
  | _, _ => False

/-- Somewhere in a row of segments, others begin. -/
def Spans (part : List (List Char)) : List (List Char) → Prop
  | [] => False
  | segment :: segments => Begins part (segment :: segments) ∨ Spans part segments

section

variable {part text segment : List Char} {first : List Char} {others segments : List (List Char)}
  {c d : Char}

theorem exists_splitSlash_cons (hc : c ≠ '/') (text : List Char) :
    ∃ segment segments, splitSlash text = segment :: segments ∧
      splitSlash (c :: text) = (c :: segment) :: segments := by
  obtain ⟨segment, segments, htext⟩ := List.exists_cons_of_ne_nil (splitSlash_ne_nil text)
  refine ⟨segment, segments, htext, ?_⟩
  rw [splitSlash, if_neg hc, htext]

/-- Segments of which the first is longer by a character lead segments of which the first is longer
by the same. -/
theorem leads_cons_cons :
    Leads ((c :: first) :: others) ((d :: segment) :: segments) ↔
      c = d ∧ Leads (first :: others) (segment :: segments) := by
  cases others with
  | nil =>
    show c :: first <+: d :: segment ↔ c = d ∧ first <+: segment
    exact List.cons_prefix_cons
  | cons second others =>
    show c :: first = d :: segment ∧ Leads (second :: others) segments ↔
      c = d ∧ first = segment ∧ Leads (second :: others) segments
    rw [List.cons.injEq, and_assoc]

/-- **A part leads a text as its segments lead those of the text.** -/
theorem isPrefix_iff_leads : part <+: text ↔ Leads (splitSlash part) (splitSlash text) := by
  induction part generalizing text with
  | nil =>
    obtain ⟨segment, segments, htext⟩ := List.exists_cons_of_ne_nil (splitSlash_ne_nil text)
    simp [htext, Leads]
  | cons c part ih =>
    obtain ⟨first, others, hpart⟩ := List.exists_cons_of_ne_nil (splitSlash_ne_nil part)
    by_cases hc : c = '/'
    · subst hc
      rw [splitSlash_slash]
      cases text with
      | nil => simp [hpart, Leads]
      | cons d text =>
        rw [List.cons_prefix_cons, ih]
        by_cases hd : d = '/'
        · subst hd
          simp [hpart, Leads]
        · obtain ⟨segment, segments, htext, hcons⟩ := exists_splitSlash_cons hd text
          simp [hpart, htext, hcons, Leads, Ne.symm hd]
    · obtain ⟨first, others, hpart, hcons⟩ := exists_splitSlash_cons hc part
      rw [hcons]
      cases text with
      | nil => cases others <;> simp [Leads]
      | cons d text =>
        rw [List.cons_prefix_cons, ih, hpart]
        by_cases hd : d = '/'
        · subst hd
          cases others <;> simp [hc, Leads]
        · obtain ⟨segment, segments, htext, htext'⟩ := exists_splitSlash_cons hd text
          rw [htext, htext', leads_cons_cons]

/-- Where the first segment of a row is empty, others begin there as they lead. -/
theorem begins_nil_cons : Begins others ([] :: segments) ↔ Leads others ([] :: segments) := by
  match others with
  | [] => simp [Begins, Leads]
  | [only] => simp [Begins, Leads]
  | first :: second :: others => simp [Begins, Leads]

/-- Others begin in a segment at its first character or behind it. -/
theorem begins_cons_cons :
    Begins others ((d :: segment) :: segments) ↔
      Leads others ((d :: segment) :: segments) ∨ Begins others (segment :: segments) := by
  match others with
  | [] => simp [Begins, Leads]
  | [only] => simp [Begins, Leads, List.infix_cons_iff]
  | first :: second :: others =>
    simp only [Begins, Leads, List.suffix_cons_iff]
    tauto

/-- **A part occurs in a text as its segments span those of the text.** -/
theorem isInfix_iff_spans : part <:+: text ↔ Spans (splitSlash part) (splitSlash text) := by
  induction text with
  | nil =>
    rw [List.infix_nil, ← List.prefix_nil, isPrefix_iff_leads, splitSlash_nil]
    simp [Spans, begins_nil_cons]
  | cons d text ih =>
    rw [List.infix_cons_iff, isPrefix_iff_leads, ih]
    by_cases hd : d = '/'
    · subst hd
      rw [splitSlash_slash, ← begins_nil_cons]
      rfl
    · obtain ⟨segment, segments, htext, hcons⟩ := exists_splitSlash_cons hd text
      rw [hcons, htext]
      simp only [Spans, begins_cons_cons, or_assoc]

end

/-! ### Whole segments -/

section

variable {part text : List Char} {before behind : List (List Char)}

theorem splitSlash_eq_splitOn (text : List Char) : splitSlash text = text.splitOn '/' := by
  induction text with
  | nil => rfl
  | cons c text ih =>
    by_cases hc : c = '/'
    · subst hc
      rw [splitSlash_slash, ih]
      exact (List.splitOn_append_cons_self [] text).symm
    · obtain ⟨segment, segments, htext, hcons⟩ := exists_splitSlash_cons hc text
      rw [hcons, List.splitOn, List.splitOnP_cons_eq_if_modifyHead, if_neg (by simpa using hc)]
      show _ = (text.splitOn '/').modifyHead (List.cons c)
      rw [← ih, htext, List.modifyHead_cons]

theorem splitSlash_injective : Function.Injective splitSlash := by
  intro s t h
  rw [splitSlash_eq_splitOn, splitSlash_eq_splitOn] at h
  have hs : ['/'].intercalate (s.splitOn '/') = s := List.intercalate_splitOn '/'
  rw [← hs, h, List.intercalate_splitOn]

/-- Where the segments of a text are cut in two, the text is cut at a slash. -/
theorem exists_of_splitSlash_eq_append (h : splitSlash text = before ++ behind)
    (hbefore : before ≠ []) (hbehind : behind ≠ []) :
    ∃ left right, text = left ++ '/' :: right ∧ splitSlash left = before ∧
      splitSlash right = behind := by
  induction text generalizing before with
  | nil =>
    have hlength := congrArg List.length h
    have hpos := List.length_pos_iff.2 hbefore
    have hpos' := List.length_pos_iff.2 hbehind
    rw [splitSlash_nil, List.length_append, List.length_singleton] at hlength
    omega
  | cons c text ih =>
    obtain ⟨first, before, rfl⟩ := List.exists_cons_of_ne_nil hbefore
    by_cases hc : c = '/'
    · subst hc
      rw [splitSlash_slash, List.cons_append] at h
      obtain ⟨rfl, htext⟩ := List.cons.inj h
      by_cases hnil : before = []
      · subst hnil
        exact ⟨[], text, rfl, rfl, htext⟩
      · obtain ⟨left, right, rfl, hleft, hright⟩ := ih htext hnil
        exact ⟨'/' :: left, right, rfl, by rw [splitSlash_slash, hleft], hright⟩
    · obtain ⟨segment, segments, htext, hcons⟩ := exists_splitSlash_cons hc text
      rw [hcons, List.cons_append] at h
      obtain ⟨rfl, rfl⟩ := List.cons.inj h
      have hsegments : splitSlash text = (segment :: before) ++ behind := htext
      obtain ⟨left, right, rfl, hleft, hright⟩ := ih hsegments (by simp)
      refine ⟨c :: left, right, rfl, ?_, hright⟩
      rw [splitSlash, if_neg hc, hleft]

/-- What stands in front of a part ends in a slash, and what stands behind it starts with one,
unless it is nothing. -/
def StandsApart (front back : List Char) : Prop :=
  (∀ c ∈ front.getLast?, c = '/') ∧ ∀ c ∈ back.head?, c = '/'

instance (front back : List Char) : Decidable (StandsApart front back) :=
  decidable_of_iff (front.getLast?.all (· = '/') ∧ back.head?.all (· = '/')) <| by
    simp [StandsApart, Option.all_eq_true]

theorem standsApart_iff {front back : List Char} :
    StandsApart front back ↔
      (front = [] ∨ ∃ left, front = left ++ ['/']) ∧
        (back = [] ∨ ∃ right, back = '/' :: right) := by
  unfold StandsApart
  apply and_congr
  · rcases List.eq_nil_or_concat' front with rfl | ⟨left, c, rfl⟩ <;> simp
  · cases back <;> simp

/-- **Whole segments of a text are a part of it that stands apart.** -/
theorem isInfix_splitSlash_iff :
    splitSlash part <:+: splitSlash text ↔
      ∃ front back, text = front ++ (part ++ back) ∧ StandsApart front back := by
  simp only [standsApart_iff]
  constructor
  · rintro ⟨before, behind, hsegments⟩
    rw [List.append_assoc] at hsegments
    -- first what stands in front is cut off, then what stands behind
    have hfront : ∃ front rest, text = front ++ rest ∧
        (front = [] ∨ ∃ left, front = left ++ ['/']) ∧
        splitSlash rest = splitSlash part ++ behind := by
      by_cases hnil : before = []
      · subst hnil
        exact ⟨[], text, rfl, .inl rfl, hsegments.symm⟩
      · obtain ⟨left, right, rfl, -, hright⟩ := exists_of_splitSlash_eq_append hsegments.symm hnil
          (by simp [splitSlash_ne_nil])
        exact ⟨left ++ ['/'], right, by simp, .inr ⟨left, rfl⟩, hright⟩
    obtain ⟨front, rest, rfl, hfront, hrest⟩ := hfront
    by_cases hnil : behind = []
    · subst hnil
      rw [List.append_nil] at hrest
      obtain rfl := splitSlash_injective hrest
      exact ⟨front, [], by simp, hfront, .inl rfl⟩
    · obtain ⟨left, right, rfl, hleft, -⟩ := exists_of_splitSlash_eq_append hrest
        (splitSlash_ne_nil part) hnil
      obtain rfl := splitSlash_injective hleft
      exact ⟨front, '/' :: right, rfl, hfront, .inr ⟨right, rfl⟩⟩
  · rintro ⟨front, back, rfl, hfront, hback⟩
    have hpart : splitSlash part <:+: splitSlash (part ++ back) := by
      rcases hback with rfl | ⟨right, rfl⟩
      · rw [List.append_nil]
      · rw [splitSlash_append_slash]
        exact List.infix_append' [] _ _
    rcases hfront with rfl | ⟨left, rfl⟩
    · exact hpart
    · rw [List.append_assoc, List.singleton_append, splitSlash_append_slash]
      exact hpart.trans (List.suffix_append _ _).isInfix

end

/-- The text of a path, with slashes for its backslashes. -/
def slashed (p : Path) : List Char :=
  p.text.toList.map fun c => if c = '\\' then '/' else c

/-- The segments of a path: what stands between its slashes and backslashes. -/
def segments (p : Path) : List (List Char) :=
  splitSlash p.slashed

end Path

/-! ### Schemas of the workspace package -/

/-- The marker of the workspace package, without the slashes around it. -/
def Settings.marker (s : Settings) : List Char :=
  trimSlashes s.workspaceMarker.toList

/-- The segments of the marker. -/
def Settings.markerSegments (s : Settings) : List (List Char) :=
  Path.splitSlash s.marker

section

variable {s : Settings} {schema : Path}

theorem isWorkspaceSchema_iff :
    s.isWorkspaceSchema schema = true ↔ s.marker ≠ [] ∧ s.marker <:+: schema.slashed := by
  unfold Settings.isWorkspaceSchema
  rw [Bool.and_eq_true, Text.occursIn_eq_true_iff]
  simp [Settings.marker, Path.slashed]

/-- The marker is in a path wherever its segments are segments of the path. -/
theorem isInfix_slashed_of_isInfix_segments (h : s.markerSegments <:+: schema.segments) :
    s.marker <:+: schema.slashed := by
  obtain ⟨front, back, hslashed, -⟩ := Path.isInfix_splitSlash_iff.1 h
  exact ⟨front, back, by rw [hslashed, List.append_assoc]⟩

/-- Without overrides, the files of a run go where the settings say for the place of the schema. -/
theorem layoutFor_eq (s : Settings) (source : SourceSettings) (follow : Bool) (root : Path)
    {request : GenerateRequest} (houtput : request.output = none)
    (hservices : request.services = none) (schema : Path) :
    s.layoutFor source follow root request schema =
      if s.isWorkspaceSchema schema then
        ⟨root.resolve source.workspaceOutput, root.resolve source.workspaceServices⟩
      else ⟨root.resolve source.output, root.resolve source.services⟩ := by
  unfold Settings.layoutFor
  rw [houtput, hservices]
  cases s.isWorkspaceSchema schema <;> rfl

end

/-- **Which schemas lie in the workspace package.**  A schema lies there when the segments of the
marker span segments of its path; whole segments do.  Where the marker occurs between slashes only,
or at the ends of the path, the schema lies there exactly when the segments of the marker are
segments of its path.  The files of a run without overrides go to the directories of the workspace
package for the schemas that lie in it, and for no others. -/
theorem workspace_marker_spans_segments (s : Settings) (schema : Path) :
    (s.isWorkspaceSchema schema = true ↔
      s.marker ≠ [] ∧ Path.Spans s.markerSegments schema.segments) ∧
    (s.marker ≠ [] → s.markerSegments <:+: schema.segments →
      s.isWorkspaceSchema schema = true) ∧
    ((∀ front back, schema.slashed = front ++ (s.marker ++ back) → Path.StandsApart front back) →
      (s.isWorkspaceSchema schema = true ↔
        s.marker ≠ [] ∧ s.markerSegments <:+: schema.segments)) ∧
    ∀ source follow root request, request.output = none → request.services = none →
      s.layoutFor source follow root request schema =
        if s.isWorkspaceSchema schema then
          ⟨root.resolve source.workspaceOutput, root.resolve source.workspaceServices⟩
        else ⟨root.resolve source.output, root.resolve source.services⟩ := by
  refine ⟨?_, ?_, ?_, ?_⟩
  · rw [isWorkspaceSchema_iff, Path.isInfix_iff_spans]
    rfl
  · intro hmarker hsegments
    rw [isWorkspaceSchema_iff]
    exact ⟨hmarker, isInfix_slashed_of_isInfix_segments hsegments⟩
  · intro hapart
    rw [isWorkspaceSchema_iff]
    apply and_congr_right
    intro _
    refine ⟨?_, isInfix_slashed_of_isInfix_segments⟩
    rintro ⟨front, back, hslashed⟩
    rw [List.append_assoc] at hslashed
    exact Path.isInfix_splitSlash_iff.2 ⟨front, back, hslashed.symm, hapart _ _ hslashed.symm⟩
  · intro source follow root request houtput hservices
    exact layoutFor_eq s source follow root houtput hservices schema

/-- A schema of the workspace package. -/
def workspaceSchema : Path :=
  ⟨".\\packages\\database\\src\\schema.ts"⟩

theorem workspace_marker_spans_segments_sample :
    let s : Settings := {}
    s.marker ≠ [] ∧ s.markerSegments <:+: workspaceSchema.segments ∧
      (∀ front back, workspaceSchema.slashed = front ++ (s.marker ++ back) →
        Path.StandsApart front back) ∧
      s.isWorkspaceSchema workspaceSchema = true ∧
      s.layoutFor .drizzle false ⟨""⟩ {} workspaceSchema =
        ⟨Path.resolve ⟨""⟩ ⟨"./packages/database/src/generated/effect"⟩,
          Path.resolve ⟨""⟩ ⟨"./packages/api/src/services"⟩⟩ := by
  intro s
  have hmarker : s.marker ≠ [] := by decide +kernel
  have hsegments : s.markerSegments <:+: workspaceSchema.segments := by decide +kernel
  have hapart : ∀ front back, workspaceSchema.slashed = front ++ (s.marker ++ back) →
      Path.StandsApart front back := by
    -- where the part stands, what stands in front of it gives what stands behind it
    have hall : ∀ n ∈ List.range workspaceSchema.slashed.length,
        s.marker <+: workspaceSchema.slashed.drop n →
          Path.StandsApart (workspaceSchema.slashed.take n)
            (workspaceSchema.slashed.drop (n + s.marker.length)) := by
      decide +kernel
    intro front back h
    have hlength := congrArg List.length h
    have hpos := List.length_pos_iff.2 hmarker
    rw [List.length_append, List.length_append] at hlength
    have hat := hall front.length (List.mem_range.2 (by omega)) (by simp [h])
    rwa [h, List.take_left, ← List.drop_drop, List.drop_left, List.drop_left] at hat
  obtain ⟨-, hwhole, hclaim, hlayout⟩ := workspace_marker_spans_segments s workspaceSchema
  have hlies := hwhole hmarker hsegments
  refine ⟨hmarker, ((hclaim hapart).1 hlies).2, hapart, hlies, ?_⟩
  rw [hlayout .drizzle false ⟨""⟩ {} rfl rfl, if_pos hlies]
  rfl

/-- **Packages of other names are taken for the workspace package**, and so are directories that
only begin like it: the marker occurs in their paths, but its segments are none of theirs. -/
theorem siblings_lie_in_workspace :
    let s : Settings := {}
    ∀ text ∈ ["my-packages/database/src/schema.ts", "packages/database-old/src/schema.ts"],
      s.isWorkspaceSchema ⟨text⟩ = true ∧ ¬ s.markerSegments <:+: Path.segments ⟨text⟩ ∧
      (s.layoutFor .drizzle false ⟨""⟩ {} ⟨text⟩).services =
        Path.resolve ⟨""⟩ ⟨"./packages/api/src/services"⟩ := by
  decide +kernel

end SchemaForge
