import SchemaForge.Proofs.Schema.Scanning
import SchemaForge.Proofs.Text.LineEnds
import SchemaForge.Schema.Source

/-!
# Schemas and the ends of lines

A schema may end its lines in either way.  A carriage return is a blank: between lexemes it is
skipped, at the end of a comment it is trimmed, and a quoted text never comes to the end of a
line.  So the tokens are the same, and those of the line ends stand one column further on.  Only a
backslash takes the character behind it, whatever it is: it would take the carriage return and
leave the line feed.

## Main definitions

* `PlainLineEnds` — no line feed stands behind a backslash.
* `TokenRow.withReturns` — the tokens of a text with carriage returns.
* `SourceError.byLine` — what an error says, and its line.

## Main results

* `lexeme_withReturns_of_ok`, `lexeme_withReturns_of_error` — one lexeme.
* `scanFrom_withReturns` — **the tokens are the same, and stand on the same lines.**
* `ofSource_withReturns`, `ofCheckedSource_withReturns` — the documents and the errors.
-/

namespace SchemaForge.Schema

open Text

variable {text rest : List Char} {c : Char}

/-- No line feed stands behind a backslash. -/
def PlainLineEnds (text : List Char) : Prop :=
  ¬ ['\\', '\n'] <:+: text

instance (text : List Char) : Decidable (PlainLineEnds text) :=
  inferInstanceAs (Decidable (¬ _))

theorem PlainLineEnds.of_isSuffix (h : PlainLineEnds text) (hrest : rest <:+ text) :
    PlainLineEnds rest :=
  fun hpart => h (hpart.trans hrest.isInfix)

theorem PlainLineEnds.tail (h : PlainLineEnds (c :: rest)) : PlainLineEnds rest :=
  h.of_isSuffix (List.suffix_cons c rest)

/-! ### One lexeme -/

/-- A quoted text has no line feed, so it is closed where it was. -/
theorem splitQuoted_withReturns (h : PlainLineEnds text) :
    splitQuoted (withReturns text) =
      (splitQuoted text).map fun (inside, rest) => (inside, withReturns rest) := by
  fun_induction splitQuoted text with
  | case1 => rfl
  | case2 c rest ih =>
    have hc : c ≠ '\n' := by
      rintro rfl
      exact h ⟨[], rest, rfl⟩
    rw [withReturns_cons (by decide), withReturns_cons hc, splitQuoted, ih h.tail.tail,
      Option.map_map, Option.map_map]
    rfl
  | case3 rest hne =>
    rw [withReturns_cons (by decide)]
    rfl
  | case4 rest hne => rfl
  | case5 c rest hne hquote hc ih =>
    rw [withReturns_cons hc, splitQuoted, if_neg hquote, if_neg hc, ih h.tail, Option.map_map,
      Option.map_map]
    · rfl
    · -- a backslash that escapes nothing is the last character
      intro d behind hescape hbehind
      cases rest with
      | nil => cases hbehind
      | cons e rest => exact hne e rest hescape rfl

-- behind a backslash, the carriage return is taken and the line feed ends the line
example : (splitQuoted ['\\', '\n', '"']).isSome = true ∧
    splitQuoted (withReturns ['\\', '\n', '"']) = none := by
  decide

/-- What a lexeme is in a text with carriage returns: at its end it may have some, and what follows
is what followed it. -/
structure Lexeme.IsReturned (l l' : Lexeme) : Prop where
  /-- It stands for the same token. -/
  kind : l'.kind = l.kind
  /-- It has the same characters, and carriage returns that were put behind them. -/
  text : ∃ returns, (∀ d ∈ returns, d = '\r') ∧ l'.text = l.text ++ returns ∧
    returns ++ l'.rest = withReturns l.rest

/-- A lexeme that has no carriage returns, in front of a text that has. -/
def Lexeme.withReturns (l : Lexeme) : Lexeme :=
  { l with rest := Text.withReturns l.rest }

theorem Lexeme.isReturned_withReturns (l : Lexeme) : l.IsReturned l.withReturns where
  kind := rfl
  text := ⟨[], by simp, (List.append_nil _).symm, rfl⟩

theorem runLexeme_withReturns {belongs : Char → Bool}
    (h : ∀ c, belongs c = true → isBlank c = false) (kind : String → TokenKind) (c : Char)
    (rest : List Char) :
    runLexeme kind belongs c (withReturns rest) = (runLexeme kind belongs c rest).withReturns := by
  obtain ⟨htake, hdrop⟩ := respacing_withReturns.takeWhile_dropWhile h rest
  rw [runLexeme, htake, hdrop]
  rfl

theorem lexeme_at_of_ne (h : rest.head? ≠ some '@') : lexeme '@' rest = .ok ⟨.at, ['@'], rest⟩ := by
  unfold lexeme
  rw [if_neg (by decide), if_neg (by decide), if_neg (by decide), if_pos rfl]
  split
  · exact absurd rfl h
  · rfl

/-- **Every lexeme but a comment is the same**, and is followed by what followed it. -/
theorem lexeme_withReturns (hc : c ≠ '\n') (hslash : c ≠ '/') (h : PlainLineEnds rest) :
    lexeme c (withReturns rest) = (lexeme c rest).map Lexeme.withReturns := by
  by_cases hat : c = '@'
  · subst hat
    by_cases hrest : rest.head? = some '@'
    · obtain ⟨behind, rfl⟩ := List.head?_eq_some_iff.1 hrest
      rw [withReturns_cons (by decide)]
      rfl
    · have hrest' := mt (respacing_withReturns.head?_eq_some_iff (by decide) rest).1 hrest
      rw [lexeme_at_of_ne hrest', lexeme_at_of_ne hrest]
      rfl
  unfold lexeme
  rw [if_neg hc, if_neg hslash, if_neg hc, if_neg hslash]
  by_cases hquote : c = '"'
  · rw [if_pos hquote, if_pos hquote, splitQuoted_withReturns h]
    cases splitQuoted rest <;> rfl
  rw [if_neg hquote, if_neg hat, if_neg hquote, if_neg hat]
  by_cases hdigit : c.isDigit = true
  · rw [if_pos hdigit, if_pos hdigit,
      runLexeme_withReturns fun _ => isBlank_eq_false_of_isNumberChar]
    rfl
  rw [if_neg hdigit, if_neg hdigit]
  by_cases hminus : c = '-'
  · rw [if_pos hminus, if_pos hminus,
      respacing_withReturns.head?_any fun _ => isBlank_eq_false_of_isNumberChar]
    split
    · rw [runLexeme_withReturns fun _ => isBlank_eq_false_of_isNumberChar]
      rfl
    · rfl
  rw [if_neg hminus, if_neg hminus]
  by_cases hname : (isAlphabetic c || c == '_') = true
  · rw [if_pos hname, if_pos hname,
      runLexeme_withReturns fun _ => isBlank_eq_false_of_isNameChar]
    rfl
  · rw [if_neg hname, if_neg hname]
    cases punctuation? c <;> rfl

/-- The end of a line with its carriage return. -/
theorem takeWhile_dropWhile_line_withReturns (rest : List Char) :
    ∃ returns, (∀ d ∈ returns, d = '\r') ∧
      (withReturns rest).takeWhile (· ≠ '\n') = rest.takeWhile (· ≠ '\n') ++ returns ∧
      returns ++ (withReturns rest).dropWhile (· ≠ '\n') =
        withReturns (rest.dropWhile (· ≠ '\n')) := by
  induction rest with
  | nil => exact ⟨[], by simp, rfl, rfl⟩
  | cons d rest ih =>
    by_cases hd : d = '\n'
    · subst hd
      exact ⟨['\r'], by simp, rfl, rfl⟩
    · obtain ⟨returns, hreturns, htake, hdrop⟩ := ih
      refine ⟨returns, hreturns, ?_, ?_⟩
      · rw [withReturns_cons hd, List.takeWhile_cons_of_pos (by simpa using hd),
          List.takeWhile_cons_of_pos (by simpa using hd), htake, List.cons_append]
      · rw [withReturns_cons hd, List.dropWhile_cons_of_pos (by simpa using hd),
          List.dropWhile_cons_of_pos (by simpa using hd), hdrop]

theorem lexeme_slash_of_ne (h : rest.head? ≠ some '/') :
    lexeme '/' rest = .error (.unexpected '/') := by
  unfold lexeme
  rw [if_neg (by decide), if_pos rfl]
  split
  · exact absurd rfl h
  · rfl

/-- **A comment is the same**: its carriage return is a blank at its end. -/
theorem isReturned_commentLexeme (c : Char) (rest : List Char) :
    (commentLexeme c rest).IsReturned (commentLexeme c (withReturns rest)) := by
  obtain ⟨returns, hreturns, htake, hdrop⟩ := takeWhile_dropWhile_line_withReturns rest
  have hblank : ∀ d ∈ returns, isBlank d = true := by
    intro d hd
    rw [hreturns d hd]
    decide
  constructor
  case kind =>
    unfold commentLexeme runLexeme
    rw [htake]
    simp only [String.toList_ofList, ← List.cons_append, trimEnd_append_of_isBlank _ hblank]
  case text =>
    refine ⟨returns, hreturns, ?_, hdrop⟩
    unfold commentLexeme runLexeme
    rw [htake, List.cons_append]

theorem lexeme_withReturns_of_error {fault : LexicalFault} (hc : c ≠ '\n')
    (h : PlainLineEnds rest) (hl : lexeme c rest = .error fault) :
    lexeme c (withReturns rest) = .error fault := by
  by_cases hslash : c = '/'
  · subst hslash
    by_cases hrest : rest.head? = some '/'
    · obtain ⟨line, rfl⟩ := List.head?_eq_some_iff.1 hrest
      cases hl
    · have hrest' := mt (respacing_withReturns.head?_eq_some_iff (by decide) rest).1 hrest
      rw [lexeme_slash_of_ne hrest']
      rwa [lexeme_slash_of_ne hrest] at hl
  · rw [lexeme_withReturns hc hslash h, hl]
    rfl

theorem lexeme_withReturns_of_ok {l : Lexeme} (hc : c ≠ '\n') (h : PlainLineEnds rest)
    (hl : lexeme c rest = .ok l) :
    ∃ l', lexeme c (withReturns rest) = .ok l' ∧ l.IsReturned l' := by
  by_cases hslash : c = '/'
  · subst hslash
    by_cases hrest : rest.head? = some '/'
    · obtain ⟨line, rfl⟩ := List.head?_eq_some_iff.1 hrest
      cases hl
      refine ⟨_, ?_, isReturned_commentLexeme '/' ('/' :: line)⟩
      rw [withReturns_cons (by decide)]
      rfl
    · rw [lexeme_slash_of_ne hrest] at hl
      cases hl
  · refine ⟨l.withReturns, ?_, l.isReturned_withReturns⟩
    rw [lexeme_withReturns hc hslash h, hl]
    rfl

theorem punctuation?_ne_newline (c : Char) : punctuation? c ≠ some .newline := by
  unfold punctuation?
  split <;> simp

/-- Only a line feed is the end of a line. -/
theorem kind_ne_newline {l : Lexeme} (hc : c ≠ '\n') (hl : lexeme c rest = .ok l) :
    l.kind ≠ .newline := by
  unfold lexeme at hl
  rw [if_neg hc] at hl
  repeat' split at hl
  all_goals cases hl
  all_goals
    intro hnewline
    cases hnewline
  exact punctuation?_ne_newline c ‹_›

/-! ### The tokens of a text -/

/-- A token of a text with carriage returns: the end of a line stands behind one. -/
def Token.withReturns (t : Token) : Token :=
  if t.kind = .newline then { t with position := t.position.next '\r' } else t

/-- The tokens of a text with carriage returns. -/
def TokenRow.withReturns (row : TokenRow) : TokenRow :=
  { row with tokens := row.tokens.map Token.withReturns }

theorem scanFrom_returns {returns : List Char} (h : ∀ d ∈ returns, d = '\r') (p : Position)
    (rest : List Char) : scanFrom p (returns ++ rest) = scanFrom (p.after returns) rest := by
  induction returns generalizing p with
  | nil => rfl
  | cons d returns ih =>
    obtain ⟨rfl, hreturns⟩ := List.forall_mem_cons.1 h
    rw [List.cons_append, scanFrom_blank (by decide) (by decide), ih hreturns, Position.after_cons]

/-- A lexeme of the text is one of the text with carriage returns. -/
theorem scanFrom_withReturns_of_ok {l : Lexeme} (hc : ¬ (isBlank c && c != '\n') = true)
    (h : PlainLineEnds rest) (hl : lexeme c rest = .ok l) (p : Position) :
    scanFrom p (withReturns (c :: rest)) =
      (scanFrom (p.after l.text) (withReturns l.rest)).map
        (TokenRow.cons (Token.withReturns ⟨l.kind, p⟩)) := by
  by_cases hnewline : c = '\n'
  · subst hnewline
    cases hl
    rw [withReturns_newline, scanFrom_blank (by decide) (by decide),
      scanFrom_of_ok (by decide) (by rfl)]
    rfl
  · obtain ⟨l', hl', hkind, returns, hreturns, htext, hrest⟩ :=
      lexeme_withReturns_of_ok hnewline h hl
    have htoken : Token.withReturns ⟨l.kind, p⟩ = ⟨l'.kind, p⟩ := by
      rw [Token.withReturns, if_neg (kind_ne_newline hnewline hl), hkind]
    rw [withReturns_cons hnewline, scanFrom_of_ok hc hl', htext, Position.after_append,
      ← scanFrom_returns hreturns, hrest, htoken]

/-- **The tokens are the same, and stand where they stood**, but for those of the line ends. -/
theorem scanFrom_withReturns (h : PlainLineEnds text) (p : Position) :
    scanFrom p (withReturns text) = (scanFrom p text).map TokenRow.withReturns := by
  fun_induction scanFrom p text with
  | case1 p =>
    rw [withReturns_nil, scanFrom_nil]
    rfl
  | case2 p c rest hblank ih =>
    have hne : c ≠ '\n' := by
      rintro rfl
      exact absurd hblank (by decide)
    rw [Bool.and_eq_true] at hblank
    rw [withReturns_cons hne, scanFrom_blank hblank.1 hne, ih h.tail]
  | case3 p c rest hc fault hl =>
    have hne : c ≠ '\n' := by
      rintro rfl
      cases hl
    rw [withReturns_cons hne, scanFrom_of_error hc (lexeme_withReturns_of_error hne h.tail hl)]
    rfl
  | case4 p c rest hc l hl fault hrest ih =>
    have hsuffix : l.rest <:+ c :: rest := ⟨l.text, lexeme_text_append_rest hl⟩
    rw [scanFrom_withReturns_of_ok hc h.tail hl, ih (h.of_isSuffix hsuffix), hrest]
    rfl
  | case5 p c rest hc l hl row hrest ih =>
    have hsuffix : l.rest <:+ c :: rest := ⟨l.text, lexeme_text_append_rest hl⟩
    rw [scanFrom_withReturns_of_ok hc h.tail hl, ih (h.of_isSuffix hsuffix), hrest]
    rfl

/-! ### Documents -/

theorem kind_withReturns (t : Token) : t.withReturns.kind = t.kind := by
  unfold Token.withReturns
  split <;> rfl

theorem line_withReturns (t : Token) : t.withReturns.position.line = t.position.line := by
  unfold Token.withReturns
  split <;> rfl

theorem kinds_withReturns (row : TokenRow) : row.withReturns.kinds = row.kinds := by
  unfold TokenRow.kinds TokenRow.withReturns
  rw [List.map_map]
  exact List.map_congr_left fun t _ => kind_withReturns t

theorem line_positionBefore_withReturns (row : TokenRow) (remaining : Nat) :
    (row.withReturns.positionBefore remaining).line = (row.positionBefore remaining).line := by
  unfold TokenRow.positionBefore TokenRow.withReturns
  rw [List.length_map, ← List.map_drop]
  cases row.tokens.drop (row.tokens.length - remaining) with
  | nil => rfl
  | cons t ts => exact line_withReturns t

/-- What an error says, and the line that it is on, if it has a place. -/
def SourceError.byLine (e : SourceError) : String × Option Nat :=
  (e.report.message, e.report.position.map (·.line))

theorem ofTokens_withReturns (row : TokenRow) :
    (Document.ofTokens row.withReturns).mapError SourceError.byLine =
      (Document.ofTokens row).mapError SourceError.byLine := by
  unfold Document.ofTokens
  rw [kinds_withReturns]
  cases Document.ofKinds row.kinds with
  | ok document => rfl
  | error fault =>
    have hline := line_positionBefore_withReturns row fault.remaining
    show Except.error (_, some (row.withReturns.positionBefore fault.remaining).line) = _
    rw [hline]
    rfl

/-- **A text with carriage returns spells the same document, or has the same error on the same
line.** -/
theorem ofSource_withReturns {source : String} (h : PlainLineEnds source.toList) :
    (Document.ofSource (sourceWithReturns source)).mapError SourceError.byLine =
      (Document.ofSource source).mapError SourceError.byLine := by
  have hscan := scanFrom_withReturns h .start
  unfold Document.ofSource TokenRow.ofSource TokenRow.ofText
  rw [toList_sourceWithReturns, hscan]
  cases scanFrom .start source.toList with
  | error fault => rfl
  | ok row => exact ofTokens_withReturns row

/-- What is done to a result does not ask where an error was. -/
theorem mapError_bind_congr {ε ε' α β : Type} {f : ε → ε'} {x y : Except ε α}
    (h : x.mapError f = y.mapError f) (g : α → Except ε β) :
    (x >>= g).mapError f = (y >>= g).mapError f := by
  cases x with
  | ok a =>
    cases y with
    | ok b =>
      obtain rfl : a = b := Except.ok.inj h
      rfl
    | error e => cases h
  | error e =>
    cases y with
    | ok b => cases h
    | error e' =>
      have he : f e = f e' := Except.error.inj h
      exact congrArg Except.error he

/-- **The same of a text whose names are to be declared once.** -/
theorem ofCheckedSource_withReturns {source : String} (h : PlainLineEnds source.toList) :
    (Document.ofCheckedSource (sourceWithReturns source)).mapError SourceError.byLine =
      (Document.ofCheckedSource source).mapError SourceError.byLine :=
  mapError_bind_congr (ofSource_withReturns h) Document.checked

end SchemaForge.Schema
