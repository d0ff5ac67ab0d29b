import SchemaForge.Decimal.Binary64
import SchemaForge.Settings.Value
import SchemaForge.Text.Blank
import SchemaForge.Text.Utf8
import SchemaForge.Text.Search
import SchemaForge.Toml.Quoted

/-!
# Settings in the environment

A variable whose name starts with the mark of the program sets the value that the rest of its name
leads to; two underscores go one level deeper.  Its text is read as a value if it spells one from
end to end, and is a text otherwise.

## Main definitions

* `Environment.path?` — the path that a variable's name leads to.
* `Environment.value` — the value that a variable's text spells.
* `Environment.layer` — the layer of all variables.
-/

namespace SchemaForge.Environment

open Text (Taken Take takeChar)

/-- What the names of settings start with, in any letter case. -/
def mark : String := "effex_"

/-! ### Names -/

/-- The parts of a name: underscores in pairs, and dots, stand between them. -/
def nameParts : List Char → List (List Char)
  | [] => [[]]
  | '_' :: '_' :: rest => [] :: nameParts rest
  | '.' :: rest => [] :: nameParts rest
  | c :: rest =>
    match nameParts rest with
    | [] => [[c]]
    | part :: parts => (c :: part) :: parts

/-- The path that a variable's name leads to, if it leads to a setting: no part may be empty.
Blanks around the name, and between the mark and the first part, are let be. -/
def path? (name : String) : Option (List String) :=
  let lower := (Text.trim name.toList).map Char.toLower
  match Text.after? mark.toList lower with
  | some rest =>
    let parts := nameParts (Text.trim rest)
    if parts.any List.isEmpty then none else some (parts.map String.ofList)
  | none => none

/-! ### Values -/

/-- Blanks that may stand around a value. -/
def isSpace (c : Char) : Bool :=
  c == ' ' || c == '\t' || c == '\n' || c == '\x0c' || c == '\r'

/-- A text without the blanks at its head. -/
def skipSpaces (text : List Char) : List Char :=
  text.dropWhile isSpace

theorem skipSpaces_length_le (text : List Char) : (skipSpaces text).length ≤ text.length :=
  (List.dropWhile_sublist _).length_le

/-- Characters of a bare value: all that do not build lists and tables. -/
def isBare (c : Char) : Bool :=
  !(c == ',' || c == '\x7b' || c == '\x7d' || c == '[' || c == ']')

/-- Characters of a bare key. -/
def isKeyChar (c : Char) : Bool :=
  c.isAlphanum || c == '_' || c == '-'

/-- A number with a point in it: digits on at least one side of the point, and perhaps an
exponent. -/
def float? (text : List Char) : Option Scalar := do
  let (negative, body) := splitSign text
  let whole := body.takeWhile Char.isDigit
  let behind ← afterPoint? (body.dropWhile Char.isDigit)
  let fraction := behind.takeWhile Char.isDigit
  guard (!(whole.isEmpty && fraction.isEmpty))
  let exponent ← exponent? (behind.dropWhile Char.isDigit)
  let d : Decimal := ⟨digitsValue (whole ++ fraction), exponent - fraction.length⟩
  return .float ((if negative then "-" else "") ++ d.toBinary64.text)
where
  /-- A sign and what follows it. -/
  splitSign : List Char → Bool × List Char
    | '-' :: rest => (true, rest)
    | '+' :: rest => (false, rest)
    | text => (false, text)
  /-- What follows a point. -/
  afterPoint? : List Char → Option (List Char)
    | '.' :: rest => some rest
    | _ => none
  /-- The number that digits spell. -/
  digitsValue (digits : List Char) : Nat :=
    digits.foldl (fun n c => 10 * n + (c.toNat - '0'.toNat)) 0
  /-- The exponent at the end of a number; without one it is zero. -/
  exponent? : List Char → Option Int
    | [] => some 0
    | e :: rest =>
      let (negative, digits) := splitSign rest
      if (e == 'e' || e == 'E') && !digits.isEmpty && digits.all Char.isDigit then
        let n : Int := digitsValue digits
        some (if negative then -n else n)
      else none

/-- A whole number that is not negative, of 64 bits. -/
def unsigned? (text : List Char) : Option Scalar :=
  let digits := match text with
    | '+' :: rest => rest
    | text => text
  let n := float?.digitsValue digits
  if !digits.isEmpty && digits.all Char.isDigit && n < Nat.pow 2 64 then some (.unsigned n)
  else none

/-- A negative whole number of 64 bits. -/
def negative? : List Char → Option Scalar
  | '-' :: digits =>
    let n := float?.digitsValue digits
    if !digits.isEmpty && digits.all Char.isDigit && n ≤ Nat.pow 2 63 then some (.signed (-n))
    else none
  | _ => none

/-- What a bare text means: a number if it spells one, else itself. -/
def bareScalar (text : List Char) : Scalar :=
  let trimmed := Text.trim text
  let float := if trimmed.contains '.' then float? trimmed else none
  (float.or ((unsigned? trimmed).or (negative? trimmed))).getD (.string (String.ofList trimmed))

/-- Take the inside of double quotes and the closing one.  Of what stands in front of the first
escape only as many bytes are kept as it has characters; without an escape all is kept. -/
def takeQuoted (text : List Char) : Take (List Char) text := do
  let ⟨s, rest, h⟩ ← Toml.takeBasic text
  let plain := text.takeWhile fun c => c != '\\' && c != '"'
  match text.drop plain.length with
  | '\\' :: _ => return ⟨Text.firstBytes plain.length plain ++ s.drop plain.length, rest, h⟩
  | _ => return ⟨s, rest, h⟩

/-- Take a key of a table: bare, or in double quotes. -/
def takeKey (text : List Char) : Take (List Char) text :=
  match text with
  | '"' :: rest => do
    let t ← takeQuoted rest
    return t.behindOne
  | text => Text.takeRun isKeyChar text

/-- What follows a given word at the head of a text. -/
def afterWord? (word : String) (text : List Char) :
    Option { rest : List Char // rest.length ≤ text.length } :=
  match h : Text.after? word.toList text with
  | some rest => some ⟨rest, by rw [← Text.append_of_after? h, List.length_append]; omega⟩
  | none => none

/-- A value of the environment. -/
def scalar (s : Scalar) : LayerValue := .scalar .environment s

mutual

/-- Take a value and the blanks around it. -/
def takeValue (text : List Char) : Option (Taken LayerValue (text.length + 1)) := do
  have hs := skipSpaces_length_le text
  let ⟨v, after, _⟩ ← takeBareValue (skipSpaces text)
  have := skipSpaces_length_le after
  return ⟨v, skipSpaces after, by omega⟩
termination_by (text.length, 1)
decreasing_by simp only [Prod.lex_def]; omega

/-- Take a value without blanks around it. -/
def takeBareValue (text : List Char) : Option (Taken LayerValue (text.length + 1)) :=
  match afterWord? "true" text, afterWord? "false" text with
  | some ⟨rest, _⟩, _ => some ⟨scalar (.boolean true), rest, by omega⟩
  | _, some ⟨rest, _⟩ => some ⟨scalar (.boolean false), rest, by omega⟩
  | none, none =>
    match text with
    | '\x7b' :: rest => do
      let ⟨entries, rest', _⟩ ← takeEntries [] rest
      return ⟨.table .environment entries, rest', by simp only [List.length_cons]; omega⟩
    | '[' :: rest => do
      let ⟨values, rest', _⟩ ← takeItems rest
      return ⟨.list .environment values, rest', by simp only [List.length_cons]; omega⟩
    | '"' :: rest => do
      let ⟨s, rest', _⟩ ← takeQuoted rest
      return ⟨scalar (.string (String.ofList s)), rest', by simp only [List.length_cons]; omega⟩
    | '\'' :: rest =>
      match rest with
      | c :: '\'' :: rest' =>
        some ⟨scalar (.char c), rest', by simp only [List.length_cons]; omega⟩
      | _ => none
    | text =>
      some ⟨scalar (bareScalar (text.takeWhile isBare)), text.dropWhile isBare,
        Nat.lt_succ_of_le (Text.dropWhile_length_le isBare text)⟩
termination_by (text.length, 0)
decreasing_by all_goals simp only [Prod.lex_def, List.length_cons]; omega

/-- Take the values of a list and the bracket that closes it. -/
def takeItems (text : List Char) : Take (List LayerValue) text :=
  match takeChar ']' text with
  | some ⟨_, rest, h⟩ => some ⟨[], rest, h⟩
  | none => do
    let ⟨v, after, _⟩ ← takeValue text
    match takeChar ',' after, takeChar ']' after with
    | some ⟨_, rest, _⟩, _ =>
      let ⟨vs, rest', _⟩ ← takeItems rest
      return ⟨v :: vs, rest', by omega⟩
    | none, some ⟨_, rest, _⟩ => return ⟨[v], rest, by omega⟩
    | none, none => none
termination_by (text.length, 2)
decreasing_by all_goals simp only [Prod.lex_def, true_and]; omega

/-- Take the entries of a table and the brace that closes it. -/
def takeEntries (entries : List (String × LayerValue)) (text : List Char) :
    Take (List (String × LayerValue)) text :=
  match takeChar '\x7d' text with
  | some ⟨_, rest, h⟩ => some ⟨entries, rest, h⟩
  | none => do
    have := skipSpaces_length_le text
    let ⟨key, afterKey, _⟩ ← takeKey (skipSpaces text)
    have := skipSpaces_length_le afterKey
    let ⟨_, afterMark, _⟩ ← takeChar '=' (skipSpaces afterKey)
    let ⟨v, after, _⟩ ← takeValue afterMark
    let entries := LayerValue.setEntry entries (String.ofList key) v
    match takeChar ',' after, takeChar '\x7d' after with
    | some ⟨_, rest, _⟩, _ =>
      let ⟨more, rest', _⟩ ← takeEntries entries rest
      return ⟨more, rest', by omega⟩
    | none, some ⟨_, rest, _⟩ => return ⟨entries, rest, by omega⟩
    | none, none => none
termination_by (text.length, 2)
decreasing_by all_goals simp only [Prod.lex_def]; omega

end

/-- The value that a variable's text spells: the whole text if nothing else. -/
def value (text : String) : LayerValue :=
  match takeValue text.toList with
  | some ⟨v, [], _⟩ => v
  | _ => scalar (.string text)

/-! ### The layer -/

/-- A value at the end of a path. -/
def nest (v : LayerValue) : List String → LayerValue
  | [] => v
  | name :: path => .table .environment [(name, nest v path)]

/-- The layer of a list of variables; of two that set the same the later counts. -/
def layer (environment : List (String × String)) : LayerValue :=
  environment.foldl (fun under (name, text) =>
    match path? name with
    | some path => under.merge (nest (value text) path)
    | none => under) (.table .environment [])

end SchemaForge.Environment
