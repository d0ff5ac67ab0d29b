import SchemaForge.Regex.WellFormed
import SchemaForge.Text.Blank
import SchemaForge.Text.Utf8
import SchemaForge.Text.Alphanumeric

/-!
# Filters of log lines

A filter is a row of directives between commas.  A directive names a level, or a target, or a span
with a field, and may end with an equals sign and a level.  The value of a field is a number or a
regular expression.

## Main definitions

* `LogFilter.isWellFormed` — whether a text is a filter.
-/

namespace SchemaForge.LogFilter

/-! ### Levels -/

/-- The names of levels, in small letters. -/
def levelNames : List String :=
  ["off", "error", "warn", "info", "debug", "trace"]

/-- Whether a text names a level, by name or by a number up to five. -/
def isLevel (text : List Char) : Bool :=
  let digits :=
    match text with
    | '+' :: rest => rest
    | text => text
  let number := digits.foldl (fun n c => 10 * n + (c.toNat - '0'.toNat)) 0
  text.isEmpty || levelNames.contains (String.ofList (text.map Char.toLower)) ||
    (!digits.isEmpty && digits.all Char.isDigit && number ≤ 5)

/-- Whether a directive may start with a character, unless it starts with a span. -/
def startsTarget (c : Char) : Bool :=
  c == '-' || c == ':' || c == '_' || Text.isAlphanumeric c

/-! ### Fields -/

/-- Whether a text is the exponent of a number, or nothing. -/
def isExponent : List Char → Bool
  | [] => true
  | e :: rest =>
    let digits :=
      match rest with
      | '+' :: rest => rest
      | '-' :: rest => rest
      | rest => rest
    (e == 'e' || e == 'E') && !digits.isEmpty && digits.all Char.isDigit

/-- Whether a text is a number without a sign: digits, with a point among them or beside them and
perhaps with an exponent, or a number that is not finite. -/
def isMagnitude (text : List Char) : Bool :=
  let whole := text.takeWhile Char.isDigit
  let behind := text.dropWhile Char.isDigit
  let (fraction, exponent) :=
    match behind with
    | '.' :: rest => rest.span Char.isDigit
    | rest => ([], rest)
  ["inf", "infinity", "nan"].contains (String.ofList (text.map Char.toLower)) ||
    (!(whole.isEmpty && fraction.isEmpty) && isExponent exponent)

/-- Whether a text is a number. -/
def isNumber : List Char → Bool
  | '+' :: text => isMagnitude text
  | '-' :: text => isMagnitude text
  | text => isMagnitude text

/-- Whether a text is a field: a name, perhaps with a value behind an equals sign.  What follows
another equals sign is let be. -/
def isField (text : List Char) : Bool :=
  match text.dropWhile (· != '=') with
  | [] => true
  | _ :: rest =>
    let value := rest.takeWhile (· != '=')
    isNumber value || Regex.isWellFormed value

/-! ### Directives -/

/-- What the pieces of a directive have to be. -/
structure Checks where
  /-- Whether a text is a level. -/
  level : List Char → Bool
  /-- Whether a text is a field, if this follows it. -/
  field : List Char → List Char → Bool

/-- Whether a text is what may stand behind a span. -/
def isBehindSpan (is : Checks) : List Char → Bool
  | [] => true
  | '=' :: text => is.level text
  | _ => false

/-- Whether a text is the rest of a span from inside its field, which may not be empty. -/
def isInField (is : Checks) (text : List Char) : Bool :=
  match text.span (· ≠ '\x7d') with
  | (c :: field, '\x7d' :: ']' :: rest) =>
    is.field (c :: field) ('\x7d' :: ']' :: rest) && isBehindSpan is rest
  | _ => false

/-- Whether a text is the rest of a span. -/
def isSpan (is : Checks) : List Char → Bool
  | [] => false
  | ']' :: rest => isBehindSpan is rest
  | '\x7b' :: rest => isInField is rest
  | _ :: rest => isSpan is rest

/-- Whether a text is the rest of a directive that starts with a target. -/
def isTarget (is : Checks) : List Char → Bool
  | [] => true
  | '=' :: text => is.level text
  | '[' :: rest => isSpan is rest
  | _ :: rest => isTarget is rest

/-- What a directive has at the place that a piece has in it without the blanks around it. -/
def pieceAt (text : List Char) (piece behind : List Char) : List Char :=
  let start := Text.byteSize (Text.trim text) - Text.byteSize (piece ++ behind)
  Text.firstBytes (Text.byteSize piece) (Text.dropBytes start text)

/-- Whether a text is a directive.  Blanks around it are let be, but not if it sets a level.  Fields
are found without those blanks and read with them. -/
def isDirective (text : List Char) : Bool :=
  let body := Text.trim text
  let is : Checks :=
    { level := fun name => body == text && isLevel name
      field := fun piece behind => isField (pieceAt text piece behind) }
  match body with
  | [] => false
  | '[' :: rest => isSpan is rest
  | c :: rest => startsTarget c && isTarget is rest

/-! ### Filters -/

/-- The pieces of a text between its commas. -/
def directives : List Char → List (List Char)
  | [] => [[]]
  | ',' :: rest => [] :: directives rest
  | c :: rest =>
    match directives rest with
    | [] => [[c]]
    | piece :: pieces => (c :: piece) :: pieces

/-- Whether a text is a filter.  Empty directives are let be. -/
def isWellFormed (text : String) : Bool :=
  (directives text.toList).all fun d => d.isEmpty || isDirective d

end SchemaForge.LogFilter
