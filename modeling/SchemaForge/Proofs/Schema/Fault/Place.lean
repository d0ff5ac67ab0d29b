import SchemaForge.Proofs.Schema.Fault.Reading
import SchemaForge.Proofs.Schema.RoundTrip

/-!
# The place of a fault

A schema whose tokens spell no document is reported at a token, or at the end of the input.  In
front of that place nothing is lost: some tokens would have gone on to a document.  With the token
at that place nothing can be saved.

The end of the input counts as a last token here, as it has a position and can be at fault.

## Main definitions

* `TokenRow.positions` — the positions of the tokens of a text, its end last.
* `stream` — a row of tokens with its end.
* `Position.Before` — the order of a text.

## Main results

* `pairwise_before_positions` — positions ascend strictly, so that each belongs to one token.
* `grammar_fault_is_first_impossible_token` — **the place of a fault is the first token that
  cannot go on.**
-/

namespace SchemaForge.Text

/-! ### The order of positions -/

/-- `p` comes before `q` in a text. -/
def Position.Before (p q : Position) : Prop :=
  p.line < q.line ∨ p.line = q.line ∧ p.column < q.column

namespace Position

variable {p q r : Position}

theorem Before.trans (h : p.Before q) (h' : q.Before r) : p.Before r := by
  simp only [Before] at *
  omega

theorem Before.ne (h : p.Before q) : p ≠ q := by
  rintro rfl
  simp only [Before] at h
  omega

theorem before_next (p : Position) (c : Char) : p.Before (p.next c) := by
  rw [next]
  split
  · exact .inl (Nat.lt_succ_self _)
  · exact .inr ⟨rfl, Nat.lt_succ_self _⟩

theorem before_after (p : Position) {text : List Char} (h : text ≠ []) :
    p.Before (p.after text) := by
  induction text generalizing p with
  | nil => exact absurd rfl h
  | cons c text ih =>
    rw [after_cons]
    rcases text with _ | ⟨d, text⟩
    · exact p.before_next c
    · exact (p.before_next c).trans (ih (p.next c) (by simp))

end Position

end SchemaForge.Text

namespace SchemaForge.Schema

open Text

/-! ### Tokens in their places -/

/-- The positions of the tokens of a text, and of its end behind them. -/
def TokenRow.positions (row : TokenRow) : List Position :=
  row.tokens.map (·.position) ++ [row.finish]

/-- A row of tokens with its end, which is no token. -/
def stream (ts : List TokenKind) : List (Option TokenKind) :=
  ts.map some ++ [none]

/-- The tokens of a text stand behind each other. -/
theorem pairwise_before_positions {position : Position} {text : List Char} {row : TokenRow}
    (h : scanFrom position text = .ok row) :
    row.positions.Pairwise Position.Before ∧
      ∀ p ∈ row.positions, p = position ∨ position.Before p := by
  fun_induction scanFrom position text generalizing row with
  | case1 position =>
    cases h
    simp [TokenRow.positions]
  | case2 position c rest _ ih =>
    obtain ⟨hpairs, hle⟩ := ih h
    refine ⟨hpairs, fun p hp => .inr ?_⟩
    rcases hle p hp with rfl | hp
    · exact position.before_next c
    · exact (position.before_next c).trans hp
  | case3 => cases h
  | case4 => cases h
  | case5 position c rest _ l hl row' hrow ih =>
    cases h
    obtain ⟨hpairs, hle⟩ := ih hrow
    -- the lexeme is not empty, so that all that follows comes behind its position
    have hbefore : ∀ p ∈ row'.positions, position.Before p := by
      intro p hp
      have hfirst := position.before_after (lexeme_text_ne_nil hl)
      rcases hle p hp with rfl | hp
      · exact hfirst
      · exact hfirst.trans hp
    refine ⟨List.pairwise_cons.2 ⟨hbefore, hpairs⟩, fun p hp => ?_⟩
    rcases List.mem_cons.1 hp with rfl | hp
    · exact .inl rfl
    · exact .inr (hbefore p hp)

/-- A position belongs to one token. -/
theorem getElem?_positions_inj {source : String} {row : TokenRow}
    (h : TokenRow.ofSource source = .ok row) {i k : Nat} {p : Position}
    (hi : row.positions[i]? = some p) (hk : row.positions[k]? = some p) : i = k := by
  have hpairs := (pairwise_before_positions (tokenRow_ofSource_eq_ok.1 h)).1
  have hnodup : row.positions.Nodup := hpairs.imp Position.Before.ne
  obtain ⟨hlt, _⟩ := List.getElem?_eq_some_iff.1 hi
  exact (List.getElem?_inj hlt hnodup).1 (hi.trans hk.symm)

/-- The place before the last tokens is the position of the first of them, or the end. -/
theorem getElem?_positions (row : TokenRow) {front behind : List TokenKind}
    (h : row.kinds = front ++ behind) :
    row.positions[front.length]? = some (row.positionBefore behind.length) := by
  have hlength := congrArg List.length h
  rw [TokenRow.kinds, List.length_map, List.length_append] at hlength
  have hfront : row.tokens.length - behind.length = front.length := by omega
  rw [TokenRow.positions, TokenRow.positionBefore, hfront]
  split
  · next token tail hdrop =>
    have htoken : row.tokens[front.length]? = some token := by
      rw [← Nat.add_zero front.length, ← List.getElem?_drop, hdrop]
      rfl
    obtain ⟨hlt, _⟩ := List.getElem?_eq_some_iff.1 htoken
    rw [List.getElem?_append_left (by rwa [List.length_map]), List.getElem?_map, htoken]
    rfl
  · next hdrop =>
    have hle := List.drop_eq_nil_iff.1 hdrop
    have hend : front.length = (row.tokens.map (·.position)).length := by
      rw [List.length_map]
      omega
    rw [hend, List.getElem?_concat_length]

/-- Rows that begin alike, up to a token or the end, go on alike. -/
theorem exists_append_of_prefix_stream {front ts : List TokenKind} {next : Option TokenKind}
    (h : front.map some ++ [next] <+: stream ts) :
    ∃ us, ts = front ++ us ∧ us.head? = next := by
  induction front generalizing ts with
  | nil =>
    cases ts with
    | nil =>
      obtain ⟨rfl, -⟩ := List.cons_prefix_cons.1 h
      exact ⟨[], rfl, rfl⟩
    | cons t ts =>
      obtain ⟨rfl, -⟩ := List.cons_prefix_cons.1 h
      exact ⟨t :: ts, rfl, rfl⟩
  | cons t front ih =>
    cases ts with
    | nil =>
      obtain ⟨heq, -⟩ := List.cons_prefix_cons.1 h
      cases heq
    | cons t' ts =>
      obtain ⟨heq, htail⟩ := List.cons_prefix_cons.1 h
      cases heq
      obtain ⟨us, rfl, hus⟩ := ih htail
      exact ⟨us, rfl, hus⟩

theorem take_stream_append (front behind : List TokenKind) :
    (stream (front ++ behind)).take (front.length + 1) = front.map some ++ [behind.head?] := by
  have hlength : (front.map some).length = front.length := List.length_map _
  rw [stream, List.map_append, List.append_assoc, ← hlength, List.take_length_add_append]
  cases behind <;> rfl

/-! ### The first token that cannot go on -/

/-- A row of tokens is a document, or has a fault where reading stops. -/
theorem faultPlace_ofKinds (ts : List TokenKind) :
    faultPlace (Document.ofKinds ts) = run [] ts := by
  rw [run_blocks, Document.ofKinds]
  cases readBlocks ts <;> rfl

theorem exists_ofKinds_of_run {ts : List TokenKind} (h : run [] ts = none) :
    ∃ d, Document.ofKinds ts = .ok d := by
  rw [← faultPlace_ofKinds] at h
  cases hd : Document.ofKinds ts with
  | ok d => exact ⟨d, rfl⟩
  | error f =>
    rw [hd] at h
    cases h

/-- A text with tokens that is no document has a fault of grammar. -/
theorem exists_fault_of_ofSource {source : String} {row : TokenRow} {e : SourceError}
    (hrow : TokenRow.ofSource source = .ok row) (h : Document.ofSource source = .error e) :
    ∃ f, Document.ofKinds row.kinds = .error f ∧
      e = .grammar f.mismatch (row.positionBefore f.remaining) := by
  have htokens : Document.ofTokens row = .error e := by
    rw [Document.ofSource, hrow] at h
    exact h
  rw [Document.ofTokens] at htokens
  split at htokens
  · cases htokens
  · next f hf => exact ⟨f, hf, (Except.error.inj htokens).symm⟩

/-- **The place of a fault is the first token that cannot go on.**  When the tokens of a text
spell no document, the report stands at exactly one of them, the end of the text being the last.
What comes in front of that token goes on to a document behind some other tokens; no text whose
tokens begin alike, that one included, is a document. -/
theorem grammar_fault_is_first_impossible_token {source : String} {row : TokenRow}
    {e : SourceError} (hrow : TokenRow.ofSource source = .ok row)
    (h : Document.ofSource source = .error e) :
    ∃ p k, e.report.position = some p ∧ (∀ i, row.positions[i]? = some p ↔ i = k) ∧
      (∃ more d, Document.ofKinds (row.kinds.take k ++ more) = .ok d) ∧
      ∀ ts, (stream row.kinds).take (k + 1) <+: stream ts →
        ∀ d, Document.ofKinds ts ≠ .ok d := by
  obtain ⟨f, hf, rfl⟩ := exists_fault_of_ofSource hrow h
  have hstop : run [] row.kinds = some f.remaining := by
    rw [← faultPlace_ofKinds, hf]
    rfl
  obtain ⟨front, behind, left, hkinds, hbehind, hfront, hleft⟩ := run_append hstop
  have hplace := getElem?_positions row hkinds
  rw [hbehind] at hplace
  refine ⟨row.positionBefore f.remaining, front.length, rfl, ?_, ?_, ?_⟩
  · intro i
    constructor
    · intro hi
      exact getElem?_positions_inj hrow hi hplace
    · rintro rfl
      exact hplace
  · -- what the tokens in front leave to be read can be read to its end
    obtain ⟨d, hd⟩ := exists_ofKinds_of_run ((hfront _).trans (run_completion left))
    refine ⟨completion left, d, ?_⟩
    rw [hkinds, List.take_left]
    exact hd
  · -- the next token stops it again, whatever follows
    intro ts hts d hd
    rw [hkinds, take_stream_append] at hts
    obtain ⟨us, rfl, hus⟩ := exists_append_of_prefix_stream hts
    have hstop' := (hfront us).trans (hleft us hus)
    rw [← faultPlace_ofKinds, hd] at hstop'
    cases hstop'

/-- A schema that breaks off inside a list inside arguments, where a comma is missing. -/
def faultySource : String :=
  "model A {
  n Int @f([1 2])
}
"

/-- The tokens of that schema. -/
def faultyRow : TokenRow :=
  ⟨[⟨.ident "model", ⟨1, 1⟩⟩, ⟨.ident "A", ⟨1, 7⟩⟩, ⟨.lbrace, ⟨1, 9⟩⟩, ⟨.newline, ⟨1, 10⟩⟩,
    ⟨.ident "n", ⟨2, 3⟩⟩, ⟨.ident "Int", ⟨2, 5⟩⟩, ⟨.at, ⟨2, 9⟩⟩, ⟨.ident "f", ⟨2, 10⟩⟩,
    ⟨.lparen, ⟨2, 11⟩⟩, ⟨.lbracket, ⟨2, 12⟩⟩, ⟨.number "1", ⟨2, 13⟩⟩, ⟨.number "2", ⟨2, 15⟩⟩,
    ⟨.rbracket, ⟨2, 16⟩⟩, ⟨.rparen, ⟨2, 17⟩⟩, ⟨.newline, ⟨2, 18⟩⟩, ⟨.rbrace, ⟨3, 1⟩⟩,
    ⟨.newline, ⟨3, 2⟩⟩], ⟨4, 1⟩⟩

/-- What is wrong with it. -/
def faultyError : SourceError :=
  .grammar (.unexpected (.token .rbracket) (some (.number "2"))) ⟨2, 15⟩

theorem grammar_fault_is_first_impossible_token_sample :
    (TokenRow.ofSource faultySource = .ok faultyRow ∧
      Document.ofSource faultySource = .error faultyError) ∧
    ∃ p k, faultyError.report.position = some p ∧
      (∀ i, faultyRow.positions[i]? = some p ↔ i = k) ∧
      (∃ more d, Document.ofKinds (faultyRow.kinds.take k ++ more) = .ok d) ∧
      ∀ ts, (stream faultyRow.kinds).take (k + 1) <+: stream ts →
        ∀ d, Document.ofKinds ts ≠ .ok d := by
  have hrow : TokenRow.ofSource faultySource = .ok faultyRow := by cbv
  have herror : Document.ofSource faultySource = .error faultyError := by cbv
  exact ⟨⟨hrow, herror⟩, grammar_fault_is_first_impossible_token hrow herror⟩

end SchemaForge.Schema
