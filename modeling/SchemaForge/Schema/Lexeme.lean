import SchemaForge.Schema.Token
import SchemaForge.Text.Blank
import SchemaForge.Text.Alphanumeric

/-!
# Lexemes of the schema language

A text is a row of lexemes with blanks between them.  The lexeme at the head of a text is decided
by its first character; each carries its own characters and what follows them, so that a text is
never lost on the way to its tokens.

## Main definitions

* `Lexeme`, `lexeme` — the lexeme at the head of a text.
* `TokenRow.ofText` — the tokens of a text.

## Main results

* `lexeme_text_append_rest` — a lexeme and what follows it make up the text it was read from.
-/

namespace SchemaForge.Schema

open Text

/-- Why no lexeme starts at a character. -/
inductive LexicalFault where
  /-- The character starts no token. -/
  | unexpected (c : Char)
  /-- The quoted text that starts there is not closed on its line. -/
  | unterminatedString
  deriving DecidableEq, Repr, Inhabited

/-- The report of a fault. -/
def LexicalFault.message : LexicalFault → String
  | unexpected c => "Unexpected character '" ++ String.singleton c ++ "'"
  | unterminatedString => "Unterminated string literal"

/-- The lexeme at the head of a text. -/
structure Lexeme where
  /-- The token it stands for. -/
  kind : TokenKind
  /-- Its characters. -/
  text : List Char
  /-- What follows it. -/
  rest : List Char
  deriving DecidableEq, Repr, Inhabited

/-! ### Quoted texts -/

/-- The character that a backslash and `c` stand for. -/
def resolveEscape (c : Char) : Char :=
  match c with
  | 'n' => '\n'
  | 't' => '\t'
  | 'r' => '\r'
  | other => other

/-- The text that the inside of a quoted text stands for. -/
def unescape : List Char → List Char
  | '\\' :: c :: rest => resolveEscape c :: unescape rest
  | c :: rest => c :: unescape rest
  | [] => []

/-- Split a text at the quote that closes it: the inside, escapes untouched, and what follows
the quote.  An escaped character never closes, not even a line feed. -/
def splitQuoted : List Char → Option (List Char × List Char)
  | [] => none
  | '\\' :: c :: rest => (splitQuoted rest).map fun (inside, rest) => ('\\' :: c :: inside, rest)
  | c :: rest =>
    if c = '"' then some ([], rest)
    else if c = '\n' then none
    else (splitQuoted rest).map fun (inside, rest) => (c :: inside, rest)

theorem splitQuoted_append {text inside rest : List Char}
    (h : splitQuoted text = some (inside, rest)) : inside ++ '"' :: rest = text := by
  fun_induction splitQuoted text generalizing inside with
  | case1 => simp at h
  | case2 c text ih =>
    obtain ⟨⟨i, r⟩, hs, he⟩ := Option.map_eq_some_iff.1 h
    simp only [Prod.mk.injEq] at he
    obtain ⟨rfl, rfl⟩ := he
    simp [ih hs]
  | case3 => simp_all
  | case4 => simp at h
  | case5 c text _ _ _ ih =>
    obtain ⟨⟨i, r⟩, hs, he⟩ := Option.map_eq_some_iff.1 h
    simp only [Prod.mk.injEq] at he
    obtain ⟨rfl, rfl⟩ := he
    simp [ih hs]

/-! ### The other lexemes -/

/-- Characters of a name after its first. -/
def isNameChar (c : Char) : Bool :=
  isAlphanumeric c || c == '_'

/-- Characters of a number after its first. -/
def isNumberChar (c : Char) : Bool :=
  c.isDigit || c == '.'

/-- The tokens of a single punctuation character. -/
def punctuation? : Char → Option TokenKind
  | '\x7b' => some .lbrace
  | '\x7d' => some .rbrace
  | '(' => some .lparen
  | ')' => some .rparen
  | '[' => some .lbracket
  | ']' => some .rbracket
  | ',' => some .comma
  | ':' => some .colon
  | '=' => some .equals
  | '?' => some .question
  | '.' => some .dot
  | _ => none

/-- The lexeme of `c` and the characters after it that belong to `class`. -/
def runLexeme (kind : String → TokenKind) (belongs : Char → Bool) (c : Char)
    (rest : List Char) : Lexeme :=
  let text := c :: rest.takeWhile belongs
  ⟨kind (String.ofList text), text, rest.dropWhile belongs⟩

/-- The comment that starts with `c`; its token is without the blanks at its end. -/
def commentLexeme (c : Char) (rest : List Char) : Lexeme :=
  runLexeme (fun text => .comment (String.ofList (trimEnd text.toList))) (· ≠ '\n') c rest

/-- The lexeme of the text `c :: rest`, whose first character is no blank other than a line
feed. -/
def lexeme (c : Char) (rest : List Char) : Except LexicalFault Lexeme :=
  if c = '\n' then .ok ⟨.newline, [c], rest⟩
  else if c = '/' then
    match rest with
    | '/' :: _ => .ok (commentLexeme c rest)
    | _ => .error (.unexpected c)
  else if c = '"' then
    match splitQuoted rest with
    | some (inside, rest) =>
      .ok ⟨.str (String.ofList (unescape inside)), c :: inside ++ ['"'], rest⟩
    | none => .error .unterminatedString
  else if c = '@' then
    match rest with
    | '@' :: rest => .ok ⟨.atAt, ['@', '@'], rest⟩
    | _ => .ok ⟨.at, [c], rest⟩
  else if c.isDigit then .ok (runLexeme .number isNumberChar c rest)
  else if c = '-' then
    if rest.head?.any isNumberChar then .ok (runLexeme .number isNumberChar c rest)
    else .error (.unexpected c)
  else if isAlphabetic c || c == '_' then .ok (runLexeme .ident isNameChar c rest)
  else
    match punctuation? c with
    | some kind => .ok ⟨kind, [c], rest⟩
    | none => .error (.unexpected c)

theorem runLexeme_text_append_rest (kind : String → TokenKind) (belongs : Char → Bool)
    (c : Char) (rest : List Char) :
    (runLexeme kind belongs c rest).text ++ (runLexeme kind belongs c rest).rest = c :: rest := by
  simp [runLexeme, List.takeWhile_append_dropWhile]

/-- A lexeme and what follows it make up the text it was read from. -/
theorem lexeme_text_append_rest {c : Char} {rest : List Char} {l : Lexeme}
    (h : lexeme c rest = .ok l) : l.text ++ l.rest = c :: rest := by
  unfold lexeme at h
  split at h
  · cases h; rfl
  split at h
  · split at h
    · cases h; exact runLexeme_text_append_rest ..
    · cases h
  split at h
  · split at h
    · rename_i hs
      cases h
      simp [splitQuoted_append hs]
    · cases h
  split at h
  · rename_i hc
    subst hc
    split at h <;> (cases h; rfl)
  split at h
  · cases h; exact runLexeme_text_append_rest ..
  split at h
  · split at h
    · cases h; exact runLexeme_text_append_rest ..
    · cases h
  split at h
  · cases h; exact runLexeme_text_append_rest ..
  split at h
  · cases h; rfl
  · cases h

/-- No lexeme is empty. -/
theorem lexeme_text_ne_nil {c : Char} {rest : List Char} {l : Lexeme}
    (h : lexeme c rest = .ok l) : l.text ≠ [] := by
  unfold lexeme at h
  repeat' split at h
  all_goals cases h
  all_goals simp [commentLexeme, runLexeme]

/-- What follows a lexeme is shorter than the text it was read from. -/
theorem lexeme_rest_length_lt {c : Char} {rest : List Char} {l : Lexeme}
    (h : lexeme c rest = .ok l) : l.rest.length < rest.length + 1 := by
  have hlen := congrArg List.length (lexeme_text_append_rest h)
  have hpos := List.length_pos_iff.2 (lexeme_text_ne_nil h)
  simp only [List.length_append, List.length_cons] at hlen
  omega

/-! ### The tokens of a text -/

/-- The tokens of a text whose first character stands at a position.  Blanks other than line
feeds separate lexemes and leave no token. -/
def scanFrom (position : Position) (text : List Char) :
    Except (LexicalFault × Position) TokenRow :=
  match text with
  | [] => .ok ⟨[], position⟩
  | c :: rest =>
    if isBlank c && c != '\n' then scanFrom (position.next c) rest
    else
      match _read : lexeme c rest with
      | .error fault => .error (fault, position)
      | .ok l =>
        match scanFrom (position.after l.text) l.rest with
        | .error fault => .error fault
        | .ok row => .ok { row with tokens := ⟨l.kind, position⟩ :: row.tokens }
termination_by text.length
decreasing_by
  · simp
  · simpa using lexeme_rest_length_lt _read

/-- The tokens of a text. -/
def TokenRow.ofText (text : List Char) : Except (LexicalFault × Position) TokenRow :=
  scanFrom .start text

end SchemaForge.Schema
