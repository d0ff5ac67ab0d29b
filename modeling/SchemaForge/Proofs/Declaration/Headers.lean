import Mathlib
import SchemaForge.Declaration.Source

/-!
# Where headers stand

Every part of a declaration leaves the end of the text that it is read from.  So a header is a
piece of the source text, and its place is counted from the start of the whole text.

## Main definitions

* `Match.IsIn` — a header that stands where it says.

## Main results

* `header?_rest_isSuffix` — a header leaves the end of its text.
* `Match.isIn_of_mem_headerMatches`, `pairwise_headerMatches` — **the headers of a text stand
  where they say, one behind the other.**
-/

namespace SchemaForge.Declaration

open Text

/-! ### What the parts of a declaration leave -/

section

variable {text rest : List Char}

theorem isSuffix_of_after? {lead : List Char} (h : after? lead text = some rest) :
    rest <:+ text :=
  ⟨lead, append_of_after? h⟩

theorem skipBlanks_isSuffix (text : List Char) : skipBlanks text <:+ text :=
  List.dropWhile_suffix _

theorem isSuffix_of_skipBlank? (h : skipBlank? text = some rest) : rest <:+ text := by
  cases text with
  | nil => cases h
  | cons c text =>
    rw [skipBlank?] at h
    split at h
    · cases h
      exact (skipBlanks_isSuffix text).trans (List.suffix_cons c text)
    · cases h

theorem isSuffix_of_mark? {mark : List Char} (h : mark? mark text = some rest) :
    rest <:+ text :=
  (isSuffix_of_after? h).trans (skipBlanks_isSuffix text)

theorem isSuffix_of_run? {belongs : Char → Bool} {found : List Char}
    (h : run? belongs text = some (found, rest)) : rest <:+ text := by
  rw [run?] at h
  split at h
  · cases h
  · cases h
    exact List.dropWhile_suffix _

theorem isSuffix_of_one? {belongs : Char → Bool} (h : one? belongs text = some rest) :
    rest <:+ text := by
  cases text with
  | nil => cases h
  | cons c text =>
    rw [one?] at h
    split at h
    · cases h
      exact List.suffix_cons c _
    · cases h

theorem isSuffix_of_skipTypeToEquals? (h : skipTypeToEquals? text = some rest) :
    rest <:+ text := by
  rw [skipTypeToEquals?] at h
  split at h
  · next type htype =>
    simp only [Option.bind_eq_bind, Option.bind_eq_some_iff] at h
    obtain ⟨⟨found, behind⟩, hfound, hrest⟩ := h
    exact (isSuffix_of_after? hrest).trans
      ((isSuffix_of_run? hfound).trans (isSuffix_of_after? htype))
  · exact isSuffix_of_after? h

theorem isSuffix_of_param? {param : List Char} (h : param? text = some (param, rest)) :
    rest <:+ text := by
  rw [param?] at h
  split at h
  · next inside hinside =>
    simp only [Option.bind_eq_bind, Option.bind_eq_some_iff, Option.pure_def,
      Option.some.injEq, Prod.mk.injEq] at h
    obtain ⟨⟨word, behind⟩, hword, left, hmark, rfl, rfl⟩ := h
    exact (isSuffix_of_mark? hmark).trans ((isSuffix_of_run? hword).trans
      ((skipBlanks_isSuffix inside).trans (isSuffix_of_after? hinside)))
  · exact isSuffix_of_run? h

/-- **A header leaves the end of the text that it is read from.** -/
theorem header?_rest_isSuffix {header : Header} (h : header? text = some header) :
    header.rest <:+ text := by
  simp only [header?, Option.bind_eq_bind, Option.bind_eq_some_iff, Option.pure_def,
    Option.some.injEq] at h
  obtain ⟨t₁, h₁, t₂, h₂, t₃, h₃, t₄, h₄, ⟨b, t₅⟩, h₅, t₆, h₆, t₇, h₇, t₈, h₈, t₉, h₉, ⟨n, t₁₀⟩,
    h₁₀, t₁₁, h₁₁, t₁₂, h₁₂, ⟨q, t₁₃⟩, h₁₃, t₁₄, h₁₄, t₁₅, h₁₅, t₁₆, h₁₆, rfl⟩ := h
  -- the words `export const` and the binding
  have hbinding : t₅ <:+ text :=
    (isSuffix_of_run? h₅).trans ((isSuffix_of_skipBlank? h₄).trans ((isSuffix_of_after? h₃).trans
      ((isSuffix_of_skipBlank? h₂).trans (isSuffix_of_after? h₁))))
  -- the type and the call
  have hcall : t₈ <:+ t₅ :=
    (isSuffix_of_mark? h₈).trans ((isSuffix_of_mark? h₇).trans
      ((isSuffix_of_skipTypeToEquals? h₆).trans (skipBlanks_isSuffix t₅)))
  -- the quoted name of the table
  have hname : t₁₂ <:+ t₈ :=
    (isSuffix_of_mark? h₁₂).trans ((isSuffix_of_one? h₁₁).trans ((isSuffix_of_run? h₁₀).trans
      ((isSuffix_of_one? h₉).trans (skipBlanks_isSuffix t₈))))
  -- the function and its opening brackets
  have hfunction : t₁₆ <:+ t₁₂ :=
    (isSuffix_of_mark? h₁₆).trans ((isSuffix_of_mark? h₁₅).trans ((isSuffix_of_mark? h₁₄).trans
      ((isSuffix_of_param? h₁₃).trans (skipBlanks_isSuffix t₁₂))))
  exact hfunction.trans (hname.trans (hcall.trans hbinding))

end

/-! ### Places in a whole text -/

/-- The position behind the first `n` characters of a text. -/
def positionAt (whole : List Char) (n : Nat) : Position :=
  Position.start.after (whole.take n)

section

variable {whole own rest : List Char} {n : Nat}

theorem drop_add_length (h : whole.drop n = own ++ rest) : whole.drop (n + own.length) = rest := by
  rw [← List.drop_drop, h, List.drop_left]

theorem positionAt_add_length (h : whole.drop n = own ++ rest) :
    positionAt whole (n + own.length) = (positionAt whole n).after own := by
  rw [positionAt, positionAt, List.take_add, Position.after_append, h, List.take_left]

end

/-! ### The search for headers -/

theorem headerMatchesFrom_cons (start : Nat) (p : Position) {c : Char} {rest : List Char}
    (h : header? (c :: rest) = none) :
    headerMatchesFrom start p (c :: rest) = headerMatchesFrom (start + 1) (p.next c) rest := by
  rw [headerMatchesFrom]
  split
  · rfl
  · next hfound =>
    rw [h] at hfound
    cases hfound

theorem headerMatchesFrom_of_eq_some (start : Nat) (p : Position) {own behind : List Char}
    {header : Header} (h : header? (own ++ behind) = some header) (hrest : header.rest = behind) :
    headerMatchesFrom start p (own ++ behind) =
      ⟨header, own, start, p⟩ ::
        headerMatchesFrom (start + own.length) (p.after own) behind := by
  subst hrest
  have htake : (own ++ header.rest).take ((own ++ header.rest).length - header.rest.length) =
      own := by
    rw [List.length_append, Nat.add_sub_cancel, List.take_left]
  cases hcons : own ++ header.rest with
  | nil =>
    rw [hcons] at h
    cases h
  | cons c rest =>
    rw [hcons] at h htake
    rw [headerMatchesFrom]
    split
    · next hfound =>
      rw [h] at hfound
      cases hfound
    · next hfound =>
      rw [h] at hfound
      cases hfound
      dsimp only
      rw [htake]

/-- A header that stands in a whole text where it says. -/
structure Match.IsIn (whole : List Char) (m : Match) : Prop where
  /-- Its position is that of the place where it starts. -/
  position : m.position = positionAt whole m.start
  /-- Its text stands there, and what it leaves stands behind it. -/
  text : whole.drop m.start = m.text ++ m.header.rest

section

variable {whole : List Char} {m : Match}

/-- The inside of the object is what the header leaves. -/
theorem Match.IsIn.drop_bodyStart (h : m.IsIn whole) :
    whole.drop m.bodyStart = m.header.rest :=
  drop_add_length h.text

theorem Match.IsIn.bodyPosition_eq (h : m.IsIn whole) :
    m.bodyPosition = positionAt whole m.bodyStart := by
  rw [Match.bodyPosition, h.position]
  exact (positionAt_add_length h.text).symm

end

/-- The headers behind a place of a whole text stand where they say. -/
theorem isIn_of_mem_headerMatchesFrom {whole text : List Char} {start : Nat} {p : Position}
    (htext : whole.drop start = text) (hp : p = positionAt whole start) :
    ∀ m ∈ headerMatchesFrom start p text, m.IsIn whole ∧ start ≤ m.start := by
  fun_induction headerMatchesFrom start p text with
  | case1 => simp
  | case2 start p c rest hnone ih =>
    have hone : whole.drop start = [c] ++ rest := htext
    have hnext : p.next c = positionAt whole (start + 1) := hp ▸ (positionAt_add_length hone).symm
    intro m hm
    obtain ⟨hin, hle⟩ := ih (drop_add_length hone) hnext m hm
    exact ⟨hin, by omega⟩
  | case3 start p c rest header hfound own ih =>
    have hown : whole.drop start = own ++ header.rest :=
      htext.trans (List.suffix_iff_eq_append.1 (header?_rest_isSuffix hfound)).symm
    have hafter : p.after own = positionAt whole (start + own.length) :=
      hp ▸ (positionAt_add_length hown).symm
    intro m hm
    rcases List.mem_cons.1 hm with rfl | hm
    · exact ⟨⟨hp, hown⟩, Nat.le_refl _⟩
    · obtain ⟨hin, hle⟩ := ih (drop_add_length hown) hafter m hm
      exact ⟨hin, by omega⟩

/-- **The headers of a text stand where they say.** -/
theorem Match.isIn_of_mem_headerMatches {whole : List Char} :
    ∀ m ∈ headerMatches whole, m.IsIn whole := by
  intro m hm
  exact (isIn_of_mem_headerMatchesFrom rfl rfl m hm).1

theorem pairwise_headerMatchesFrom {whole text : List Char} {start : Nat} {p : Position}
    (htext : whole.drop start = text) (hp : p = positionAt whole start) :
    (headerMatchesFrom start p text).Pairwise fun m n => m.bodyStart ≤ n.start := by
  fun_induction headerMatchesFrom start p text with
  | case1 => exact List.Pairwise.nil
  | case2 start p c rest hnone ih =>
    have hone : whole.drop start = [c] ++ rest := htext
    exact ih (drop_add_length hone) (hp ▸ (positionAt_add_length hone).symm)
  | case3 start p c rest header hfound own ih =>
    have hown : whole.drop start = own ++ header.rest :=
      htext.trans (List.suffix_iff_eq_append.1 (header?_rest_isSuffix hfound)).symm
    have hafter : p.after own = positionAt whole (start + own.length) :=
      hp ▸ (positionAt_add_length hown).symm
    refine List.pairwise_cons.2 ⟨fun n hn => ?_, ih (drop_add_length hown) hafter⟩
    exact (isIn_of_mem_headerMatchesFrom (drop_add_length hown) hafter n hn).2

/-- **The headers of a text stand one behind the other.** -/
theorem pairwise_headerMatches (whole : List Char) :
    (headerMatches whole).Pairwise fun m n => m.bodyStart ≤ n.start :=
  pairwise_headerMatchesFrom rfl rfl

theorem header?_of_mem_headerMatchesFrom {whole text : List Char} {start : Nat} {p : Position}
    (htext : whole.drop start = text) :
    ∀ m ∈ headerMatchesFrom start p text, header? (whole.drop m.start) = some m.header := by
  fun_induction headerMatchesFrom start p text with
  | case1 => simp
  | case2 start p c rest hnone ih =>
    have hone : whole.drop start = [c] ++ rest := htext
    exact ih (drop_add_length hone)
  | case3 start p c rest header hfound own ih =>
    have hown : whole.drop start = own ++ header.rest :=
      htext.trans (List.suffix_iff_eq_append.1 (header?_rest_isSuffix hfound)).symm
    refine List.forall_mem_cons.2 ⟨?_, ih (drop_add_length hown)⟩
    rw [htext]
    exact hfound

/-- A header of a text is the one that is read at its place. -/
theorem header?_of_mem_headerMatches {whole : List Char} {m : Match}
    (h : m ∈ headerMatches whole) : header? (whole.drop m.start) = some m.header :=
  header?_of_mem_headerMatchesFrom rfl m h

end SchemaForge.Declaration
