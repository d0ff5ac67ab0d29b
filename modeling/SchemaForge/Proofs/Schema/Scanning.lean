import SchemaForge.Proofs.Schema.Canonical
import SchemaForge.Proofs.Text.Blank
import SchemaForge.Schema.Layout
import SchemaForge.Schema.Lexeme

/-!
# Texts and their tokens

What a text is scanned into does not depend on where it stands, so a text spells a row of tokens
or none.  A token that was scanned carries a text of its own form; written back, that text is
scanned into the same token, in front of anything that does not run into it.

## Main definitions

* `Spells` — the tokens that a text is scanned into.
* `Breaks` — nothing runs into the text that follows.
* `TokenKind.Lexical` — the token carries the text of a lexeme.

## Main results

* `lexical_of_scanFrom` — every token of a scanned text is lexical.
* `spells_name`, `spells_number`, `spells_quote`, `spells_comment` — lexical tokens, written back.
-/

namespace SchemaForge.Schema

open Text

variable {text rest : List Char} {ts us : List TokenKind} {c : Char}

/-! ### One step of a scan -/

/-- A row of tokens with one more in front. -/
def TokenRow.cons (t : Token) (row : TokenRow) : TokenRow :=
  { row with tokens := t :: row.tokens }

@[simp] theorem scanFrom_nil (p : Position) : scanFrom p [] = .ok ⟨[], p⟩ := by
  rw [scanFrom.eq_def]

theorem scanFrom_blank (hc : isBlank c = true) (hne : c ≠ '\n') (p : Position)
    (rest : List Char) : scanFrom p (c :: rest) = scanFrom (p.next c) rest := by
  rw [scanFrom.eq_def]
  exact if_pos (by simp [hc, hne])

theorem scanFrom_of_error {fault : LexicalFault} (hc : ¬ (isBlank c && c != '\n') = true)
    (hl : lexeme c rest = .error fault) (p : Position) :
    scanFrom p (c :: rest) = .error (fault, p) := by
  rw [scanFrom.eq_def]
  dsimp only
  rw [if_neg hc]
  split
  · next fault' hfault =>
    rw [hl] at hfault
    cases hfault
    rfl
  · next l hl' =>
    rw [hl] at hl'
    cases hl'

theorem scanFrom_of_ok {l : Lexeme} (hc : ¬ (isBlank c && c != '\n') = true)
    (hl : lexeme c rest = .ok l) (p : Position) :
    scanFrom p (c :: rest) =
      (scanFrom (p.after l.text) l.rest).map (TokenRow.cons ⟨l.kind, p⟩) := by
  rw [scanFrom.eq_def]
  dsimp only
  rw [if_neg hc]
  split
  · next fault hfault =>
    rw [hl] at hfault
    cases hfault
  · next l' hl' =>
    rw [hl] at hl'
    obtain rfl := Except.ok.inj hl'
    cases scanFrom (p.after l.text) l.rest <;> rfl

/-! ### Texts as rows of lexemes -/

/-- Wherever it stands, a text is scanned into tokens of these kinds. -/
def Spells (text : List Char) (ts : List TokenKind) : Prop :=
  ∀ position, ∃ row, scanFrom position text = .ok row ∧ row.kinds = ts

theorem spells_nil : Spells [] [] := by
  intro position
  exact ⟨⟨[], position⟩, scanFrom_nil position, rfl⟩

theorem Spells.blank (hc : isBlank c = true) (hne : c ≠ '\n') (h : Spells rest ts) :
    Spells (c :: rest) ts := by
  intro position
  obtain ⟨row, hrow, hkinds⟩ := h (position.next c)
  exact ⟨row, (scanFrom_blank hc hne position rest).trans hrow, hkinds⟩

theorem Spells.lexeme {l : Lexeme} (hc : isBlank c = false ∨ c = '\n')
    (hl : lexeme c rest = .ok l) (h : Spells l.rest ts) : Spells (c :: rest) (l.kind :: ts) := by
  intro position
  obtain ⟨row, hrow, rfl⟩ := h (position.after l.text)
  have hstarts : ¬ (isBlank c && c != '\n') = true := by
    rcases hc with hc | rfl <;> simp [*]
  refine ⟨row.cons ⟨l.kind, position⟩, ?_, rfl⟩
  rw [scanFrom_of_ok hstarts hl, hrow]
  rfl

theorem Spells.spaces (n : Nat) (h : Spells rest ts) :
    Spells (List.replicate n ' ' ++ rest) ts := by
  induction n with
  | zero => exact h
  | succ n ih => exact ih.blank (by decide) (by decide)

/-! ### Classes of characters -/

/-- Characters that start a name. -/
def startsName (c : Char) : Bool :=
  isAlphabetic c || c == '_'

theorem isNameChar_of_startsName (h : startsName c = true) : isNameChar c = true := by
  simp only [startsName, Bool.or_eq_true] at h
  rcases h with h | h <;> simp [isNameChar, isAlphanumeric, h]

theorem isBlank_eq_false_of_isNameChar (h : isNameChar c = true) : isBlank c = false := by
  cases hblank : isBlank c with
  | false => rfl
  | true =>
    simp only [isNameChar, isAlphanumeric_eq_false_of_isBlank hblank, Bool.false_or,
      beq_iff_eq] at h
    subst h
    exact absurd hblank (by decide)

theorem toNat_lt_of_isDigit (h : c.isDigit = true) : c.toNat < 128 := by
  simp only [Char.isDigit, Bool.and_eq_true, decide_eq_true_eq] at h
  exact Nat.lt_of_le_of_lt (UInt32.le_iff_toNat_le.1 h.2) (by decide)

theorem isNameChar_of_isDigit (h : c.isDigit = true) : isNameChar c = true := by
  simp [isNameChar, isAlphanumeric, isNumeric, toNat_lt_of_isDigit h, h]

theorem isBlank_eq_false_of_isNumberChar (h : isNumberChar c = true) : isBlank c = false := by
  simp only [isNumberChar, Bool.or_eq_true, beq_iff_eq] at h
  rcases h with h | rfl
  · exact isBlank_eq_false_of_isNameChar (isNameChar_of_isDigit h)
  · decide

theorem isDigit_eq_false_of_startsName (h : startsName c = true) : c.isDigit = false := by
  cases hdigit : c.isDigit with
  | false => rfl
  | true =>
    simp only [startsName, Bool.or_eq_true, beq_iff_eq] at h
    rcases h with h | rfl
    · rw [isAlphabetic, if_pos (toNat_lt_of_isDigit hdigit)] at h
      grind [Char.isAlpha, Char.isUpper, Char.isLower, Char.isDigit]
    · exact absurd hdigit (by decide)

/-- The characters that start another lexeme than a name. -/
theorem ne_of_startsName (h : startsName c = true) :
    c ≠ '\n' ∧ c ≠ '/' ∧ c ≠ '"' ∧ c ≠ '@' ∧ c ≠ '-' := by
  refine ⟨?_, ?_, ?_, ?_, ?_⟩ <;> (rintro rfl; exact absurd h (by decide))

theorem ne_of_isDigit (h : c.isDigit = true) : c ≠ '\n' ∧ c ≠ '/' ∧ c ≠ '"' ∧ c ≠ '@' := by
  refine ⟨?_, ?_, ?_, ?_⟩ <;> (rintro rfl; exact absurd h (by decide))

/-- What follows runs neither into a name nor into a number. -/
def Breaks (rest : List Char) : Prop :=
  ∀ c ∈ rest.head?, isNameChar c = false ∧ isNumberChar c = false

theorem breaks_nil : Breaks [] := by
  intro c h
  cases h

theorem breaks_cons : Breaks (c :: rest) ↔ isNameChar c = false ∧ isNumberChar c = false := by
  simp [Breaks]

theorem Breaks.append (htext : Breaks text) (hrest : Breaks rest) : Breaks (text ++ rest) := by
  cases text with
  | nil => exact hrest
  | cons c text => exact breaks_cons.2 (breaks_cons.1 htext)

/-! ### The texts that tokens carry -/

/-- The token carries the text of a lexeme: a name, a number or a comment has its own form, and a
quoted text may be any. -/
def TokenKind.Lexical : TokenKind → Prop
  | .ident name => ∃ c cs, name.toList = c :: cs ∧ startsName c = true ∧
      ∀ d ∈ cs, isNameChar d = true
  | .number digits => ∃ c cs, digits.toList = c :: cs ∧
      (c.isDigit = true ∨ c = '-' ∧ cs.head?.any isNumberChar = true) ∧
      ∀ d ∈ cs, isNumberChar d = true
  | .comment text => ∃ cs, text.toList = '/' :: '/' :: cs ∧ '\n' ∉ cs ∧
      trimEnd text.toList = text.toList
  | _ => True

/-- The comment that starts with two slashes is trimmed behind them. -/
theorem lexical_commentLexeme (cs : List Char) : (commentLexeme '/' ('/' :: cs)).kind.Lexical := by
  have hslash : isBlank '/' = false := by decide
  refine ⟨trimEnd (cs.takeWhile (· ≠ '\n')), ?_, ?_, ?_⟩
  · simp [trimEnd_cons_of_not_isBlank hslash]
  · intro hmem
    have hne := List.mem_takeWhile_imp ((trimEnd_isPrefix _).subset hmem)
    simp at hne
  · simp

/-- Every lexeme gives a lexical token. -/
theorem lexical_of_lexeme {l : Lexeme} (h : lexeme c rest = .ok l) : l.kind.Lexical := by
  unfold lexeme at h
  split at h
  · cases h; trivial
  split at h
  · next hslash =>
    split at h
    · cases h
      rw [hslash]
      exact lexical_commentLexeme _
    · cases h
  split at h
  · split at h
    · cases h; trivial
    · cases h
  split at h
  · split at h <;> (cases h; trivial)
  split at h
  -- a number: its first character is a digit, or a minus with a digit behind it
  · next hdigit =>
    cases h
    exact ⟨c, _, String.toList_ofList, .inl hdigit, fun d hd => List.mem_takeWhile_imp hd⟩
  split at h
  · next hminus =>
    split at h
    · next hnext =>
      cases h
      refine ⟨c, _, String.toList_ofList, .inr ⟨hminus, ?_⟩, fun d hd => List.mem_takeWhile_imp hd⟩
      cases rest with
      | nil => cases hnext
      | cons d rest => simp_all
    · cases h
  split at h
  -- a name, up to the first character that no name has
  · next hname =>
    cases h
    exact ⟨c, _, String.toList_ofList, hname, fun d hd => List.mem_takeWhile_imp hd⟩
  split at h
  · next kind hkind =>
    cases h
    -- a punctuation character carries no text
    unfold punctuation? at hkind
    split at hkind <;> first | (cases hkind; trivial) | cases hkind
  · cases h

/-- Every token of a scanned text is lexical. -/
theorem lexical_of_scanFrom {position : Position} {row : TokenRow}
    (h : scanFrom position text = .ok row) : ∀ t ∈ row.kinds, t.Lexical := by
  fun_induction scanFrom position text generalizing row with
  | case1 position =>
    cases h
    simp [TokenRow.kinds]
  | case2 position c rest _ ih => exact ih h
  | case3 => cases h
  | case4 => cases h
  | case5 position c rest _ l hl row' hrow ih =>
    cases h
    intro t ht
    rcases List.mem_cons.1 ht with rfl | ht
    · exact lexical_of_lexeme hl
    · exact ih hrow t ht

/-- A lexical name has no dot. -/
theorem TokenKind.Lexical.undotted {t : TokenKind} (h : t.Lexical) : t.Undotted := by
  rintro name rfl hdot
  obtain ⟨c, cs, hname, hc, hcs⟩ := h
  have hall : ∀ d ∈ name.toList, isNameChar d = true := by
    intro d hd
    rw [hname] at hd
    rcases List.mem_cons.1 hd with rfl | hd
    · exact isNameChar_of_startsName hc
    · exact hcs d hd
  exact absurd (hall '.' hdot) (by decide)

/-! ### Tokens written back -/

theorem runLexeme_append (kind : String → TokenKind) (belongs : Char → Bool) (c : Char)
    {cs : List Char} (hcs : ∀ d ∈ cs, belongs d = true)
    (hrest : ∀ d ∈ rest.head?, belongs d = false) :
    runLexeme kind belongs c (cs ++ rest) = ⟨kind (String.ofList (c :: cs)), c :: cs, rest⟩ := by
  have hstop : rest.takeWhile belongs = [] ∧ rest.dropWhile belongs = rest := by
    cases rest with
    | nil => exact ⟨rfl, rfl⟩
    | cons d rest => simp [hrest d rfl]
  simp only [runLexeme, List.takeWhile_append_of_pos hcs, List.dropWhile_append_of_pos hcs,
    hstop.1, hstop.2, List.append_nil]

theorem lexeme_of_startsName (hc : startsName c = true) (rest : List Char) :
    lexeme c rest = .ok (runLexeme .ident isNameChar c rest) := by
  obtain ⟨hnewline, hslash, hquote, hat, hminus⟩ := ne_of_startsName hc
  unfold lexeme
  rw [if_neg hnewline, if_neg hslash, if_neg hquote, if_neg hat,
    if_neg (by simp [isDigit_eq_false_of_startsName hc]), if_neg hminus]
  exact if_pos hc

theorem lexeme_of_isDigit (hc : c.isDigit = true) (rest : List Char) :
    lexeme c rest = .ok (runLexeme .number isNumberChar c rest) := by
  obtain ⟨hnewline, hslash, hquote, hat⟩ := ne_of_isDigit hc
  unfold lexeme
  rw [if_neg hnewline, if_neg hslash, if_neg hquote, if_neg hat, if_pos hc]

theorem lexeme_minus (h : rest.head?.any isNumberChar = true) :
    lexeme '-' rest = .ok (runLexeme .number isNumberChar '-' rest) := by
  simp [lexeme, h]

/-- A name in front of what does not run into it. -/
theorem spells_name {name : String} (hname : (TokenKind.ident name).Lexical)
    (hstop : ∀ d ∈ rest.head?, isNameChar d = false) (h : Spells rest us) :
    Spells (name.toList ++ rest) (.ident name :: us) := by
  obtain ⟨c, cs, htext, hc, hcs⟩ := hname
  have hl := lexeme_of_startsName hc (cs ++ rest)
  rw [runLexeme_append _ _ c hcs hstop, ← htext, String.ofList_toList] at hl
  rw [htext]
  exact Spells.lexeme (.inl (isBlank_eq_false_of_isNameChar (isNameChar_of_startsName hc))) hl h

/-- A number in front of what does not run into it. -/
theorem spells_number {digits : String} (hdigits : (TokenKind.number digits).Lexical)
    (hbreaks : Breaks rest) (h : Spells rest us) :
    Spells (digits.toList ++ rest) (.number digits :: us) := by
  obtain ⟨c, cs, htext, hc, hcs⟩ := hdigits
  have hrun := runLexeme_append .number isNumberChar c hcs fun d hd => (hbreaks d hd).2
  rw [← htext, String.ofList_toList] at hrun
  rw [htext]
  rcases hc with hc | ⟨rfl, hnext⟩
  · have hblank := isBlank_eq_false_of_isNameChar (isNameChar_of_isDigit hc)
    exact Spells.lexeme (.inl hblank) ((lexeme_of_isDigit hc _).trans (by rw [hrun])) h
  · have hhead : (cs ++ rest).head?.any isNumberChar = true := by
      cases cs with
      | nil => cases hnext
      | cons d cs => exact hnext
    exact Spells.lexeme (.inl (by decide)) ((lexeme_minus hhead).trans (by rw [hrun])) h

/-- A comment in front of the end of its line. -/
theorem spells_comment {comment : String} (hcomment : (TokenKind.comment comment).Lexical)
    (h : Spells ('\n' :: rest) us) :
    Spells (comment.toList ++ '\n' :: rest) (.comment comment :: us) := by
  obtain ⟨cs, htext, hcs, htrim⟩ := hcomment
  have hall : ∀ d ∈ '/' :: cs, decide (d ≠ '\n') = true := by
    intro d hd
    rcases List.mem_cons.1 hd with rfl | hd
    · decide
    · exact decide_eq_true fun hne => hcs (hne ▸ hd)
  have hstop : ∀ d ∈ ('\n' :: rest).head?, decide (d ≠ '\n') = false := by simp
  have hrun := runLexeme_append
    (fun text => .comment (String.ofList (trimEnd text.toList))) (· ≠ '\n') '/' hall hstop
  rw [← htext, String.ofList_toList, htrim, String.ofList_toList] at hrun
  have hl : lexeme '/' ('/' :: (cs ++ '\n' :: rest)) =
      .ok ⟨.comment comment, comment.toList, '\n' :: rest⟩ := congrArg Except.ok hrun
  rw [htext]
  exact Spells.lexeme (.inl (by decide)) hl h

/-! ### Quoted texts -/

theorem splitQuoted_flatMap_escape (text rest : List Char) :
    splitQuoted (text.flatMap escape ++ '"' :: rest) = some (text.flatMap escape, rest) := by
  induction text with
  | nil => simp [splitQuoted]
  | cons c text ih =>
    rw [List.flatMap_cons, List.append_assoc, escape.eq_def]
    split
    all_goals simp_all [splitQuoted]

/-- An escaped text stands for itself. -/
theorem unescape_flatMap_escape (text : List Char) : unescape (text.flatMap escape) = text := by
  induction text with
  | nil => rfl
  | cons c text ih =>
    rw [List.flatMap_cons, escape.eq_def]
    split
    all_goals simp_all [unescape, resolveEscape]

/-- A quoted text, whatever follows. -/
theorem spells_quote (value : String) (h : Spells rest us) :
    Spells (quote value.toList ++ rest) (.str value :: us) := by
  have hsplit := splitQuoted_flatMap_escape value.toList rest
  have hl : lexeme '"' (value.toList.flatMap escape ++ '"' :: rest) =
      .ok ⟨.str value, '"' :: value.toList.flatMap escape ++ ['"'], rest⟩ := by
    simp [lexeme, hsplit, unescape_flatMap_escape]
  rw [quote, List.cons_append, List.append_assoc]
  exact Spells.lexeme (.inl (by decide)) hl h

/-! ### Marks and line ends -/

theorem spells_newline (h : Spells rest us) : Spells ('\n' :: rest) (.newline :: us) :=
  Spells.lexeme (.inr rfl) (l := ⟨.newline, ['\n'], rest⟩) rfl h

theorem lexeme_of_punctuation {kind : TokenKind} (hc : punctuation? c = some kind)
    (rest : List Char) : lexeme c rest = .ok ⟨kind, [c], rest⟩ := by
  unfold punctuation? at hc
  split at hc <;> cases hc <;> rfl

theorem spells_punctuation {kind : TokenKind} (hc : punctuation? c = some kind)
    (h : Spells rest us) : Spells (c :: rest) (kind :: us) := by
  refine Spells.lexeme (.inl ?_) (lexeme_of_punctuation hc rest) h
  unfold punctuation? at hc
  split at hc <;> first | decide | cases hc

/-- The mark of an attribute in front of its name. -/
theorem spells_at (hne : ∀ xs, rest ≠ '@' :: xs) (h : Spells rest us) :
    Spells ('@' :: rest) (.at :: us) := by
  have hl : lexeme '@' rest = .ok ⟨.at, ['@'], rest⟩ := by
    unfold lexeme
    rw [if_neg (by decide), if_neg (by decide), if_neg (by decide), if_pos rfl]
    split
    · next xs => exact absurd rfl (hne xs)
    · rfl
  exact Spells.lexeme (.inl (by decide)) hl h

theorem spells_atAt (h : Spells rest us) : Spells ('@' :: '@' :: rest) (.atAt :: us) :=
  Spells.lexeme (.inl (by decide)) (l := ⟨.atAt, ['@', '@'], rest⟩) rfl h

end SchemaForge.Schema
