import SchemaForge.Text.Position

/-!
# Tokens of the schema language

A schema is read as a row of tokens.  Line ends are tokens, because a field ends with its line;
blanks are not.  The end of the input is no token of its own: a row of tokens comes with the
position where the text ends.

## Main definitions

* `TokenKind` — the kinds of token, with their text where they have one.
* `Token`, `TokenRow` — a token in its place, and the tokens of a whole text.
* `TokenRow.positionBefore` — where the last tokens of a row begin.
-/

namespace SchemaForge.Schema

open Text

/-- A kind of token. -/
inductive TokenKind where
  /-- A name or keyword. -/
  | ident (name : String)
  /-- A quoted text, with its escapes resolved. -/
  | str (value : String)
  /-- A number, as written. -/
  | number (digits : String)
  /-- A comment from its slashes to its last character that is not blank. -/
  | comment (text : String)
  /-- The brace that opens a block. -/
  | lbrace
  /-- The brace that closes a block. -/
  | rbrace
  /-- The parenthesis in front of arguments. -/
  | lparen
  /-- The parenthesis behind arguments. -/
  | rparen
  /-- The bracket in front of a list. -/
  | lbracket
  /-- The bracket behind a list. -/
  | rbracket
  /-- The mark between values. -/
  | comma
  /-- The mark behind the name of an argument. -/
  | colon
  /-- The mark between a key and its value. -/
  | equals
  /-- The mark `@` of an attribute. -/
  | at
  /-- The mark `@@` of a block attribute. -/
  | atAt
  /-- The mark of an optional field. -/
  | question
  /-- The mark between the parts of a name. -/
  | dot
  /-- The end of a line. -/
  | newline
  deriving DecidableEq, Repr, Inhabited

/-- A kind of token as messages name it. -/
def TokenKind.describe : TokenKind → String
  | ident name => "'" ++ name ++ "'"
  | str value => "string \"" ++ value ++ "\""
  | number digits => "number " ++ digits
  | comment _ => "comment"
  | lbrace => "'\x7b'"
  | rbrace => "'\x7d'"
  | lparen => "'('"
  | rparen => "')'"
  | lbracket => "'['"
  | rbracket => "']'"
  | comma => "','"
  | colon => "':'"
  | equals => "'='"
  | «at» => "'@'"
  | atAt => "'@@'"
  | question => "'?'"
  | dot => "'.'"
  | newline => "end of line"

/-- What messages call the end of the input. -/
def endOfInput : String := "end of input"

/-- The token found at some place, or the end of the input, as messages name it. -/
def describeFound : Option TokenKind → String
  | some kind => kind.describe
  | none => endOfInput

/-- A token in its place. -/
structure Token where
  /-- What it is. -/
  kind : TokenKind
  /-- Where its first character stands. -/
  position : Position
  deriving DecidableEq, Repr, Inhabited

/-- The tokens of a text. -/
structure TokenRow where
  /-- The tokens, in order. -/
  tokens : List Token
  /-- Where the text ends. -/
  finish : Position
  deriving DecidableEq, Repr, Inhabited

namespace TokenRow

/-- The kinds of the tokens: all that decides what a text means. -/
def kinds (row : TokenRow) : List TokenKind :=
  row.tokens.map (·.kind)

/-- Where the last `remaining` tokens of the row begin: the position of the first of them, or
the end of the text when there is none. -/
def positionBefore (row : TokenRow) (remaining : Nat) : Position :=
  match row.tokens.drop (row.tokens.length - remaining) with
  | token :: _ => token.position
  | [] => row.finish

@[simp] theorem positionBefore_zero (row : TokenRow) : row.positionBefore 0 = row.finish := by
  simp [positionBefore]

end TokenRow

end SchemaForge.Schema
