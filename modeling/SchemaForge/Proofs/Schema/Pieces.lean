import SchemaForge.Proofs.Schema.Fault.Place
import SchemaForge.Proofs.Schema.Lexemes
import SchemaForge.Proofs.Text.Place

/-!
# The tokens of a text in their places

A text that is scanned into tokens is the row of their lexemes, with spacing between them and
nothing lost.  The position of a token is counted from the start of the text: a line for every
line feed in front of its lexeme, and a column for every character behind the last of these.  A
text that cannot be scanned is such a row as far as the place of the fault.

## Main definitions

* `Piece` — a token with its lexeme and the spacing in front.
* `AreLaidOut` — pieces that make up a text, each in its place.

## Main results

* `ofText_eq_ok_iff` — the tokens of a text are those that it is laid out in.
* `scanning_loses_nothing` — **tokens, with spacing between them, make up their source, and
  scanning stops at the first character that starts no lexeme.**
-/

namespace SchemaForge.Schema

open Text

/-! ### Pieces -/

/-- A token with its lexeme, and the spacing in front. -/
structure Piece where
  /-- What stands between the lexeme before and this one. -/
  spacing : List Char
  /-- The characters of the lexeme. -/
  own : List Char
  /-- The token that it is read as. -/
  token : Token

/-- The characters of a piece. -/
def Piece.text (p : Piece) : List Char :=
  p.spacing ++ p.own

/-- The text that some pieces and what is behind them make up. -/
def piecesText (pieces : List Piece) (tail : List Char) : List Char :=
  pieces.flatMap Piece.text ++ tail

/-- Only spacing: blanks other than line feeds. -/
def IsSpacing (text : List Char) : Prop :=
  ∀ c ∈ text, isBlank c = true ∧ c ≠ '\n'

/-- Pieces behind some text, with a tail behind them: between the lexemes and in the tail there is
spacing only, every lexeme has the form of its token, and every token has the position of its
lexeme. -/
def AreLaidOut (front : List Char) : List Piece → List Char → Prop
  | [], tail => IsSpacing tail
  | p :: pieces, tail =>
    IsSpacing p.spacing ∧ IsLexeme p.token.kind p.own (piecesText pieces tail) ∧
      p.token.position = placeBehind (front ++ p.spacing) ∧
      AreLaidOut (front ++ p.text) pieces tail

section

variable {front text spacing rest tail more : List Char} {c : Char} {pieces : List Piece}
  {row : TokenRow} {fault : LexicalFault} {p : Position}

theorem piecesText_cons (p : Piece) (pieces : List Piece) (tail : List Char) :
    piecesText (p :: pieces) tail = p.spacing ++ (p.own ++ piecesText pieces tail) := by
  simp [piecesText, Piece.text]

theorem isSpacing_cons : IsSpacing (c :: text) ↔ isSpacing c = true ∧ IsSpacing text := by
  simp [IsSpacing, isSpacing]

/-- Spacing is passed over. -/
theorem scanFrom_spacing (h : IsSpacing spacing) (front rest : List Char) :
    scanFrom (placeBehind front) (spacing ++ rest) =
      scanFrom (placeBehind (front ++ spacing)) rest := by
  induction spacing generalizing front with
  | nil => rw [List.append_nil, List.nil_append]
  | cons c spacing ih =>
    obtain ⟨⟨hblank, hline⟩, hspacing⟩ := List.forall_mem_cons.1 h
    have hnext : (placeBehind front).next c = placeBehind (front ++ [c]) :=
      placeBehind_after front [c]
    rw [List.cons_append, scanFrom_blank hblank hline, hnext, ih hspacing, List.append_assoc,
      List.singleton_append]

/-- **Laid out pieces are scanned into their tokens.** -/
theorem scanFrom_of_areLaidOut (h : AreLaidOut front pieces tail) :
    scanFrom (placeBehind front) (piecesText pieces tail) =
      .ok ⟨pieces.map Piece.token, placeBehind (front ++ piecesText pieces tail)⟩ := by
  induction pieces generalizing front with
  | nil =>
    have htail := scanFrom_spacing h front []
    rw [List.append_nil, scanFrom_nil] at htail
    exact htail
  | cons p pieces ih =>
    obtain ⟨hspacing, hform, hposition, hpieces⟩ := h
    obtain ⟨c, cs, hown, hc, hlexeme⟩ := hform.lexeme_eq
    have hstarts : ¬ (isBlank c && c != '\n') = true := by
      rw [Bool.not_eq_true]
      exact hc
    have hrest := ih hpieces
    rw [Piece.text, ← List.append_assoc] at hrest
    rw [piecesText_cons, scanFrom_spacing hspacing, hown, List.cons_append,
      scanFrom_of_ok hstarts hlexeme, placeBehind_after, hrest, ← hposition, ← List.cons_append,
      ← hown]
    simp [Except.map, TokenRow.cons]

/-- Spacing in front of laid out pieces belongs to the first of them, or to the tail. -/
theorem AreLaidOut.exists_spacing (hc : isSpacing c = true)
    (h : AreLaidOut (front ++ [c]) pieces tail) :
    ∃ pieces' tail', AreLaidOut front pieces' tail' ∧
      piecesText pieces' tail' = c :: piecesText pieces tail ∧
      pieces'.map Piece.token = pieces.map Piece.token := by
  cases pieces with
  | nil => exact ⟨[], c :: tail, isSpacing_cons.2 ⟨hc, h⟩, rfl, rfl⟩
  | cons p pieces =>
    obtain ⟨hspacing, hform, hposition, hpieces⟩ := h
    refine ⟨{ p with spacing := c :: p.spacing } :: pieces, tail,
      ⟨isSpacing_cons.2 ⟨hc, hspacing⟩, hform, ?_, ?_⟩, ?_, rfl⟩
    · simpa using hposition
    · simpa [Piece.text] using hpieces
    · rw [piecesText_cons, piecesText_cons]
      rfl

/-- **A text that is scanned is laid out** in the tokens that are found. -/
theorem exists_areLaidOut_of_scanFrom (h : scanFrom p text = .ok row)
    (hp : p = placeBehind front) :
    ∃ pieces tail, AreLaidOut front pieces tail ∧ piecesText pieces tail = text ∧
      pieces.map Piece.token = row.tokens := by
  fun_induction scanFrom p text generalizing front row with
  | case1 => exact ⟨[], [], fun c hc => absurd hc List.not_mem_nil, rfl, by cases h; rfl⟩
  | case2 p c rest hc ih =>
    obtain ⟨pieces, tail, hpieces, rfl, htokens⟩ :=
      ih h (hp ▸ placeBehind_after front [c])
    obtain ⟨pieces', tail', hpieces', htext, htokens'⟩ := hpieces.exists_spacing hc
    exact ⟨pieces', tail', hpieces', htext, htokens'.trans htokens⟩
  | case3 => cases h
  | case4 => cases h
  | case5 p c rest hc l hl row' hrow ih =>
    cases h
    obtain ⟨pieces, tail, hpieces, htext, htokens⟩ :=
      ih hrow (hp ▸ placeBehind_after front l.text)
    have hform := isLexeme_of_lexeme hl
    refine ⟨⟨[], l.text, ⟨l.kind, p⟩⟩ :: pieces, tail, ⟨?_, ?_, ?_, hpieces⟩, ?_, ?_⟩
    · exact fun c hc => absurd hc List.not_mem_nil
    · rwa [htext]
    · rw [hp, List.append_nil]
    · rw [piecesText_cons, htext]
      exact lexeme_text_append_rest hl
    · rw [List.map_cons, htokens]

/-- **A text that cannot be scanned is laid out as far as the fault**, and where the fault is no
lexeme starts. -/
theorem exists_areLaidOut_of_scanFrom_error {q : Position}
    (h : scanFrom p text = .error (fault, q)) (hp : p = placeBehind front) :
    ∃ pieces tail c rest, AreLaidOut front pieces tail ∧
      piecesText pieces tail ++ c :: rest = text ∧
      q = placeBehind (front ++ piecesText pieces tail) ∧ fault.IsAt c rest := by
  fun_induction scanFrom p text generalizing front with
  | case1 => cases h
  | case2 p c rest hc ih =>
    obtain ⟨pieces, tail, d, behind, hpieces, rfl, hq, hfault⟩ :=
      ih h (hp ▸ placeBehind_after front [c])
    obtain ⟨pieces', tail', hpieces', htext, -⟩ := hpieces.exists_spacing hc
    refine ⟨pieces', tail', d, behind, hpieces', by rw [htext, List.cons_append], ?_, hfault⟩
    rw [hq, htext, List.append_assoc, List.singleton_append]
  | case3 p c rest hc fault' hl =>
    cases h
    refine ⟨[], [], c, rest, fun c hc => absurd hc List.not_mem_nil, rfl, ?_, ?_⟩
    · rw [hp]
      simp [piecesText]
    · exact isAt_of_lexeme_eq_error (by simpa [isSpacing] using hc) hl
  | case4 p c rest hc l hl fault' hrest ih =>
    cases h
    obtain ⟨pieces, tail, d, behind, hpieces, htext, hq, hfault⟩ :=
      ih hrest (hp ▸ placeBehind_after front l.text)
    have hform := isLexeme_of_lexeme hl
    rw [← htext] at hform
    refine ⟨⟨[], l.text, ⟨l.kind, p⟩⟩ :: pieces, tail, d, behind,
      ⟨?_, hform.of_append, ?_, hpieces⟩, ?_, ?_, hfault⟩
    · exact fun c hc => absurd hc List.not_mem_nil
    · rw [hp, List.append_nil]
    · rw [piecesText_cons, List.nil_append, List.append_assoc, htext]
      exact lexeme_text_append_rest hl
    · rw [hq, piecesText_cons, List.nil_append, List.append_assoc]
  | case5 => cases h

/-- **The tokens of a text are those that it is laid out in.** -/
theorem ofText_eq_ok_iff : TokenRow.ofText text = .ok row ↔
    ∃ pieces tail, AreLaidOut [] pieces tail ∧ piecesText pieces tail = text ∧
      row = ⟨pieces.map Piece.token, placeBehind text⟩ := by
  constructor
  · intro h
    obtain ⟨pieces, tail, hpieces, rfl, htokens⟩ :=
      exists_areLaidOut_of_scanFrom h (after_start [])
    refine ⟨pieces, tail, hpieces, rfl, ?_⟩
    exact (Except.ok.inj ((scanFrom_of_areLaidOut hpieces).symm.trans h)).symm
  · rintro ⟨pieces, tail, hpieces, rfl, rfl⟩
    exact scanFrom_of_areLaidOut hpieces

end

/-- **Scanning loses nothing, and its positions are true.**  A source is scanned into a row of
tokens exactly when it is laid out in them: it is the row of their lexemes with nothing but
spacing between, every lexeme has the form of its token, and every token has the position of its
lexeme.  The row ends where the source does, behind all of its tokens, and positions ascend
strictly.  Otherwise the source is such a row in front of the place that is reported, which is
scanned by itself, and at that place no lexeme starts. -/
theorem scanning_loses_nothing (source : String) :
    (∀ row, TokenRow.ofSource source = .ok row ↔
      ∃ pieces tail, AreLaidOut [] pieces tail ∧ piecesText pieces tail = source.toList ∧
        row = ⟨pieces.map Piece.token, placeBehind source.toList⟩) ∧
    (∀ row, TokenRow.ofSource source = .ok row → row.positions.Pairwise Position.Before) ∧
    ∀ e, TokenRow.ofSource source = .error e →
      ∃ fault front c rest row, e = .lexical fault (placeBehind front) ∧
        front ++ c :: rest = source.toList ∧ TokenRow.ofText front = .ok row ∧
        fault.IsAt c rest := by
  refine ⟨fun row => ?_, fun row h => ?_, fun e h => ?_⟩
  · rw [tokenRow_ofSource_eq_ok]
    exact ofText_eq_ok_iff
  · exact (pairwise_before_positions (tokenRow_ofSource_eq_ok.1 h)).1
  · rw [TokenRow.ofSource] at h
    split at h
    · cases h
    · next fault q hq =>
      cases h
      obtain ⟨pieces, tail, c, rest, hpieces, htext, rfl, hfault⟩ :=
        exists_areLaidOut_of_scanFrom_error hq (after_start [])
      exact ⟨fault, piecesText pieces tail, c, rest, _, rfl, htext,
        ofText_eq_ok_iff.2 ⟨pieces, tail, hpieces, rfl, rfl⟩, hfault⟩

end SchemaForge.Schema
