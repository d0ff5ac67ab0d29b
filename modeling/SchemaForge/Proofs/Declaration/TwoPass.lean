import SchemaForge.Proofs.Declaration.Blanks
import SchemaForge.Proofs.Declaration.Inside

/-!
# Splitting in two passes

The entries of an object can be read in two passes over its characters.  The first puts a space in
the place of every comment outside literals; the second cuts at the commas outside literals and
brackets.  Both know of a literal only whether they are inside one, and no pass looks for the end
of anything.  What is cut is trimmed, and what is empty then is dropped.

## Main definitions

* `Quoting` — where a reader of characters stands.
* `dropComments` — the first pass.
* `pieces` — the second pass.
* `twoPass` — the pieces of a text, trimmed, without the empty ones.

## Main results

* `dropComments_eq` — **the first pass reads the comments of the text as spaces.**
* `pieces_eq` — **the second pass cuts a text without comments into its groups.**
-/

namespace SchemaForge.Declaration

open Text

/-- Where a reader of characters stands. -/
inductive Quoting where
  /-- Outside literals. -/
  | outside
  /-- In a literal that starts with a quote. -/
  | inside (quote : Char)
  /-- Behind a backslash in such a literal. -/
  | escaped (quote : Char)
  deriving DecidableEq, Repr

/-- Where the reader stands behind a character. -/
def Quoting.next : Quoting → Char → Quoting
  | outside, c => if isQuote c then inside c else outside
  | inside quote, c =>
    if c = '\\' then escaped quote else if c = quote then outside else inside quote
  | escaped quote, _ => inside quote

/-- Where the reader stands behind a text. -/
def Quoting.after (state : Quoting) (text : List Char) : Quoting :=
  text.foldl next state

/-- Where the first pass stands: at what is kept, or in a comment of one of the two kinds. -/
inductive Within where
  /-- At what is kept. -/
  | code (state : Quoting)
  /-- In a comment up to the end of its line. -/
  | line
  /-- In a comment between two marks. -/
  | block
  deriving DecidableEq, Repr

/-- The first pass: a space for every comment outside literals.  A comment to the end of its line
goes up to the line feed, and takes it along. -/
def dropComments : Within → List Char → List Char
  | _, [] => []
  | .code .outside, '/' :: '/' :: rest => ' ' :: dropComments .line rest
  | .code .outside, '/' :: '*' :: rest => ' ' :: dropComments .block rest
  | .code state, c :: rest => c :: dropComments (.code (state.next c)) rest
  | .line, c :: rest => dropComments (if c = '\n' then .code .outside else .line) rest
  | .block, '*' :: '/' :: rest => dropComments (.code .outside) rest
  | .block, _ :: rest => dropComments .block rest

/-- Put a character in front of the first piece of a row of pieces. -/
def consChar (c : Char) : List (List Char) → List (List Char)
  | [] => [[c]]
  | piece :: pieces => (c :: piece) :: pieces

/-- How many brackets are open behind a character; fewer than none where more were closed. -/
def Quoting.depthBehind (state : Quoting) (depth : Int) (c : Char) : Int :=
  if state = .outside then
    if isOpening c then depth + 1 else if isClosing c then depth - 1 else depth
  else depth

/-- The second pass: the pieces between the commas outside literals and brackets. -/
def pieces (state : Quoting) (depth : Int) : List Char → List (List Char)
  | [] => [[]]
  | c :: rest =>
    if state = .outside ∧ c = ',' ∧ depth = 0 then [] :: pieces .outside 0 rest
    else consChar c (pieces (state.next c) (state.depthBehind depth c) rest)

/-- The pieces of a text in two passes, trimmed; an empty one is dropped. -/
def twoPass (text : List Char) : List (List Char) :=
  ((pieces .outside 0 (dropComments (.code .outside) text)).map trim).filter (· ≠ [])

/-! ### Literals -/

/-- The reader is inside a literal in front of every character of a text. -/
def Quoting.StaysInside (state : Quoting) : List Char → Prop
  | [] => True
  | c :: rest => state ≠ .outside ∧ (state.next c).StaysInside rest

section

variable {state : Quoting} {q c : Char} {text inside after rest own : List Char} {depth : Int}

theorem Quoting.after_cons (state : Quoting) (c : Char) (text : List Char) :
    state.after (c :: text) = (state.next c).after text := rfl

theorem Quoting.after_append (state : Quoting) (s t : List Char) :
    state.after (s ++ t) = (state.after s).after t :=
  List.foldl_append

theorem next_inside_of_ne (h : c ≠ '\\') (hq : c ≠ q) :
    (Quoting.inside q).next c = .inside q := by
  rw [Quoting.next, if_neg h, if_neg hq]

theorem next_inside_quote (h : q ≠ '\\') : (Quoting.inside q).next q = .outside := by
  rw [Quoting.next, if_neg h, if_pos rfl]

/-- **A literal ends where the reader comes out of it**, and not before. -/
theorem staysInside_of_splitLiteral (hq : q ≠ '\\')
    (h : splitLiteral q text = some (inside, after)) :
    (Quoting.inside q).StaysInside inside ∧ (Quoting.inside q).after inside = .outside := by
  fun_induction splitLiteral q text generalizing inside with
  | case1 => cases h
  | case2 c rest ih =>
    obtain ⟨i, hs, rfl⟩ := (map_inside_eq_some_iff (f := fun i => '\\' :: c :: i)).1 h
    obtain ⟨hstays, hafter⟩ := ih hs
    exact ⟨⟨by simp, by simp [Quoting.next], hstays⟩, hafter⟩
  | case3 rest =>
    cases h
    exact ⟨⟨by simp, trivial⟩, next_inside_quote hq⟩
  | case4 c rest hescape hc ih =>
    obtain ⟨i, hs, rfl⟩ := map_inside_eq_some_iff.1 h
    -- a backslash at the end of the text would leave the literal open
    have hbackslash : c ≠ '\\' := by
      rintro rfl
      cases rest with
      | nil => cases hs
      | cons d rest => exact hescape d rest rfl rfl
    have hnext := next_inside_of_ne hbackslash hc
    obtain ⟨hstays, hafter⟩ := ih hs
    exact ⟨⟨by simp, by rwa [hnext]⟩, by rwa [Quoting.after_cons, hnext]⟩

theorem staysInside_of_splitLiteral_eq_none (h : splitLiteral q text = none) :
    (Quoting.inside q).StaysInside text := by
  fun_induction splitLiteral q text with
  | case1 => trivial
  | case2 c rest ih =>
    exact ⟨by simp, by simp [Quoting.next], ih (Option.map_eq_none_iff.1 h)⟩
  | case3 => cases h
  | case4 c rest hescape hc ih =>
    have hstays := ih (Option.map_eq_none_iff.1 h)
    refine ⟨by simp, ?_⟩
    by_cases hbackslash : c = '\\'
    · cases rest with
      | nil => trivial
      | cons d rest => exact absurd rfl (hescape d rest hbackslash)
    · rwa [next_inside_of_ne hbackslash hc]

/-- The first pass keeps what stands inside a literal. -/
theorem dropComments_append_of_staysInside (h : state.StaysInside own) (rest : List Char) :
    dropComments (.code state) (own ++ rest) =
      own ++ dropComments (.code (state.after own)) rest := by
  induction own generalizing state with
  | nil => rfl
  | cons c own ih =>
    obtain ⟨hstate, hown⟩ := h
    rw [List.cons_append, dropComments, ih hown]
    · rfl
    all_goals
      intros
      simp_all

/-- The second pass does not cut it. -/
theorem pieces_append_of_staysInside (h : state.StaysInside own) (depth : Int)
    (rest : List Char) :
    pieces state depth (own ++ rest) =
      own.foldr consChar (pieces (state.after own) depth rest) := by
  induction own generalizing state with
  | nil => rfl
  | cons c own ih =>
    obtain ⟨hstate, hown⟩ := h
    rw [List.cons_append, pieces, if_neg fun h => hstate h.1, Quoting.depthBehind, if_neg hstate,
      ih hown]
    rfl

/-! ### The first pass -/

theorem dropComments_line (text : List Char) :
    dropComments .line text = dropComments (.code .outside) (splitLine text).2 := by
  fun_induction splitLine text with
  | case1 => rfl
  | case2 rest => rw [dropComments, if_pos rfl]
  | case3 c rest hne line after hs ih =>
    rw [hs] at ih
    rw [dropComments, if_neg hne, ih]

theorem dropComments_block (text : List Char) :
    dropComments .block text =
      (splitBlockComment text).elim [] fun s => dropComments (.code .outside) s.2 := by
  fun_induction splitBlockComment text with
  | case1 => rfl
  | case2 rest => rfl
  | case3 c rest hne ih =>
    rw [dropComments, ih]
    · cases splitBlockComment rest <;> rfl
    · exact hne

/-- The first pass keeps what does not start a comment. -/
theorem dropComments_cons (h : c ≠ '/' ∨ BreaksSlash rest) :
    dropComments (.code .outside) (c :: rest) =
      c :: dropComments (.code (Quoting.outside.next c)) rest := by
  rw [dropComments]
  · rintro more - rfl rfl
    exact (breaksSlash_cons.1 (h.resolve_left fun hne => hne rfl)).1 rfl
  · rintro more - rfl rfl
    exact (breaksSlash_cons.1 (h.resolve_left fun hne => hne rfl)).2 rfl

/-- **The first pass reads the comments of a text as spaces.** -/
theorem dropComments_eq (text : List Char) :
    dropComments (.code .outside) text = withoutComments text := by
  fun_induction chunks text with
  | case1 => simp [dropComments]
  | case2 c rest ih =>
    rw [withoutComments_cons]
    rcases chunk_forms c rest with hquote | ⟨line, rfl, rfl⟩ | ⟨block, rfl, rfl⟩ | ⟨hquote, hslash⟩
    · have hslash : c ≠ '/' := by
        rintro rfl
        cases hquote
      rw [dropComments_cons (.inl hslash), Quoting.next, if_pos hquote]
      cases hs : splitLiteral c rest with
      | none =>
        have hkept := dropComments_append_of_staysInside
          (staysInside_of_splitLiteral_eq_none hs) []
        rw [chunk_open_quote hquote hs]
        simpa [dropComments, Chunk.bareText, Chunk.text] using hkept
      | some split =>
        obtain ⟨inside, after⟩ := split
        obtain ⟨hstays, hafter⟩ := staysInside_of_splitLiteral (ne_backslash_of_isQuote hquote) hs
        rw [chunk_quote hquote hs] at ih ⊢
        rw [← splitLiteral_append hs, dropComments_append_of_staysInside hstays, hafter, ih]
        rfl
    · rw [chunk_line] at ih ⊢
      rw [dropComments, dropComments_line, ih]
      rfl
    · rw [dropComments, dropComments_block]
      cases hs : splitBlockComment block with
      | none =>
        rw [chunk_open_block hs]
        simp [Chunk.bareText]
      | some split =>
        rw [chunk_block hs] at ih ⊢
        rw [Option.elim_some, ih]
        rfl
    · rw [chunk_eq_char hquote hslash] at ih ⊢
      rw [dropComments_cons hslash, Quoting.next, if_neg (by simp [hquote]), ih]
      rfl

/-! ### The second pass -/

/-- The pieces of groups of which the first starts with a chunk. -/
theorem map_text_consFirst (k : Chunk) {groups : List (List Chunk)} (h : groups ≠ []) :
    (consFirst k groups).map (·.flatMap Chunk.text) =
      k.text.foldr consChar (groups.map (·.flatMap Chunk.text)) := by
  obtain ⟨group, groups, rfl⟩ := List.exists_cons_of_ne_nil h
  have hfirst : ∀ (own first : List Char) (more : List (List Char)),
      own.foldr consChar (first :: more) = (own ++ first) :: more := by
    intro own first more
    induction own with
    | nil => rfl
    | cons c own ih => rw [List.foldr_cons, ih, consChar, List.cons_append]
  rw [List.map_cons, hfirst, consFirst, List.map_cons, List.flatMap_cons]

/-- A character outside literals opens or closes as its chunk does. -/
theorem depthBehind_outside {k j : Nat} (h : (Chunk.char c).depthBehind? k = some j) :
    Quoting.outside.depthBehind k c = j := by
  rw [Quoting.depthBehind, if_pos rfl]
  rcases Chunk.depthBehind?_cases h with ⟨hopen, rfl⟩ | ⟨hopen, hclose, rfl⟩ |
    ⟨hopen, hclose, rfl⟩
  · simp [hopen]
  · simp [hopen, hclose]
  · simp [hopen, hclose]

theorem depthBehind?_of_isQuote (h : isQuote c = true) (k : Nat) :
    (Chunk.char c).depthBehind? k = some k := by
  simp only [isQuote, Bool.or_eq_true, beq_iff_eq] at h
  rcases h with (rfl | rfl) | rfl <;> rfl

/-- **The second pass cuts a text without comments into its groups**, where the brackets are
balanced. -/
theorem pieces_eq {k j : Nat} (hcomments : ∀ chunk ∈ chunks text, chunk.isComment = false)
    (hended : AreEnded (chunks text)) (hdepth : depthThrough k (chunks text) = some j) :
    pieces .outside k text = (splitCommas k (chunks text)).map (·.flatMap Chunk.text) := by
  fun_induction chunks text generalizing k with
  | case1 => rfl
  | case2 c rest ih =>
    obtain ⟨hcomment, hrestComments⟩ := List.forall_mem_cons.1 hcomments
    obtain ⟨hk, hrestEnded⟩ := List.forall_mem_cons.1 hended
    obtain ⟨i, hi, hrestDepth⟩ := Option.bind_eq_some_iff.1 hdepth
    have hrest := ih hrestComments hrestEnded hrestDepth
    have hafter := Chunk.depthAfter_of_depthBehind? hi 0
    rw [Nat.add_zero, Nat.add_zero] at hafter
    rcases chunk_cases_of_not_isComment hcomment with ⟨-, -, hchunk⟩ |
      ⟨inside, after, hquote, hs, hchunk⟩ | ⟨hquote, hslash, hchunk⟩
    · rw [hchunk] at hk
      cases hk
    · rw [hchunk] at hi hafter hrest ⊢
      cases hi
      obtain ⟨hstays, hoff⟩ := staysInside_of_splitLiteral (ne_backslash_of_isQuote hquote) hs
      have hcomma : c ≠ ',' := by
        rintro rfl
        cases hquote
      rw [pieces, if_neg fun h => hcomma h.2.1, Quoting.next, if_pos hquote,
        depthBehind_outside (depthBehind?_of_isQuote hquote k), ← splitLiteral_append hs,
        pieces_append_of_staysInside hstays, hoff, hrest, splitCommas, if_neg (by simp), hafter,
        map_text_consFirst _ (splitCommas_ne_nil _ _)]
      rfl
    · rw [hchunk] at hi hafter hrest ⊢
      by_cases hcomma : c = ',' ∧ k = 0
      · obtain ⟨rfl, rfl⟩ := hcomma
        cases hi
        rw [pieces, if_pos ⟨rfl, rfl, rfl⟩, splitCommas, if_pos ⟨rfl, rfl⟩]
        exact congrArg (List.cons []) hrest
      · rw [pieces, if_neg (by simpa using hcomma), Quoting.next, if_neg (by simp [hquote]),
          depthBehind_outside hi, hrest, splitCommas, if_neg (by simpa using hcomma), hafter,
          map_text_consFirst _ (splitCommas_ne_nil _ _)]
        rfl

end

end SchemaForge.Declaration
