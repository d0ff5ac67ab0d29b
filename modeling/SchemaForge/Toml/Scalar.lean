import SchemaForge.Decimal.Binary64
import SchemaForge.Toml.Blank

/-!
# Unquoted values of a settings file

Numbers, truth values and times are words without blanks, except that a date and a time may stand
a space apart.  The whole word decides.

## Main definitions

* `Word` — what a word means.
* `Word.read?` — the meaning of a word.
* `takeWord` — an unquoted value at the head of a text.
-/

namespace SchemaForge.Toml

open Text (Taken Take takeRun)

/-- What an unquoted value means. -/
inductive Word where
  /-- A truth value. -/
  | boolean (b : Bool)
  /-- A whole number of 64 bits. -/
  | integer (n : Int)
  /-- A number with a fraction or an exponent, in its shortest form. -/
  | float (text : String)
  /-- A date, a time or both. -/
  | time (text : String)
  deriving DecidableEq, Repr, Inhabited

/-! ### Numbers -/

/-- The digits of a group whose underscores stand between digits. -/
def digitGroup? (isDigit : Char → Bool) : List Char → Option (List Char)
  | [c] => if isDigit c then some [c] else none
  | c :: '_' :: rest =>
    if isDigit c then (digitGroup? isDigit rest).map (c :: ·) else none
  | c :: rest => if isDigit c then (digitGroup? isDigit rest).map (c :: ·) else none
  | [] => none

/-- The value of a digit in a base of at most sixteen. -/
def digitValue (c : Char) : Nat :=
  if c.isDigit then c.toNat - '0'.toNat else c.toLower.toNat - 'a'.toNat + 10

/-- The number that digits spell in a base. -/
def ofDigits (base : Nat) (digits : List Char) : Nat :=
  digits.foldl (fun n c => base * n + digitValue c) 0

/-- Whether a character is a hexadecimal digit. -/
def isHexDigit (c : Char) : Bool :=
  c.isDigit || ('a' ≤ c && c ≤ 'f') || ('A' ≤ c && c ≤ 'F')

/-- A whole number, if it has 64 bits. -/
def integer? (n : Int) : Option Word :=
  let bound : Int := Nat.pow 2 63
  if -bound ≤ n ∧ n < bound then some (.integer n) else none

/-- A whole number in a base other than ten, behind its mark. -/
def basedInteger? (base : Nat) (isDigit : Char → Bool) (text : List Char) : Option Word := do
  let digits ← digitGroup? isDigit text
  integer? (ofDigits base digits)

/-- A sign and what follows it; without a sign a number is positive. -/
def splitSign : List Char → Bool × List Char
  | '-' :: rest => (true, rest)
  | '+' :: rest => (false, rest)
  | text => (false, text)

/-- Whether a character may stand in a group of digits. -/
def isGroupChar (c : Char) : Bool :=
  c.isDigit || c == '_'

/-- The digits behind a point, and what follows them; without a point there are none. -/
def fraction? : List Char → Option (List Char × List Char)
  | '.' :: rest => do
    let digits ← digitGroup? Char.isDigit (rest.takeWhile isGroupChar)
    return (digits, rest.dropWhile isGroupChar)
  | text => some ([], text)

/-- The exponent at the end of a number; without one it is zero. -/
def exponent? : List Char → Option Int
  | [] => some 0
  | e :: rest =>
    if e = 'e' ∨ e = 'E' then do
      let (negative, text) := splitSign rest
      let digits ← digitGroup? Char.isDigit text
      let n : Int := ofDigits 10 digits
      return if negative then -n else n
    else none

/-- A sign in front of a text. -/
def signed (negative : Bool) (text : String) : String :=
  if negative then "-" ++ text else text

/-- A number with a fraction or an exponent; a positive one that is too large is none. -/
def floatOf? (negative : Bool) (whole fraction : List Char) (exponent : Int) : Option Word :=
  let d : Decimal := ⟨ofDigits 10 (whole ++ fraction), exponent - fraction.length⟩
  match d.toBinary64, negative with
  | .infinity, false => none
  | b, _ => some (.float (signed negative b.text))

/-- A number of the decimal system. -/
def decimal? (negative : Bool) (text : List Char) : Option Word := do
  let whole ← digitGroup? Char.isDigit (text.takeWhile isGroupChar)
  guard (whole.length = 1 ∨ whole.head? ≠ some '0')
  match text.dropWhile isGroupChar with
  | [] => integer? (if negative then -ofDigits 10 whole else ofDigits 10 whole)
  | rest => do
    let (fraction, rest) ← fraction? rest
    floatOf? negative whole fraction (← exponent? rest)

/-- A number. -/
def number? (text : List Char) : Option Word :=
  match text with
  | '0' :: 'x' :: rest => basedInteger? 16 isHexDigit rest
  | '0' :: 'o' :: rest => basedInteger? 8 (fun c => '0' ≤ c && c ≤ '7') rest
  | '0' :: 'b' :: rest => basedInteger? 2 (fun c => c == '0' || c == '1') rest
  | text =>
    let (negative, rest) := splitSign text
    if rest = ['i', 'n', 'f'] then some (.float (signed negative "inf"))
    else if rest = ['n', 'a', 'n'] then some (.float "NaN")
    else decimal? negative rest

/-! ### Times -/

/-- The number of two digits at the head of a text, within bounds, and what follows it. -/
def twoDigits? (low high : Nat) : List Char → Option (Nat × List Char)
  | a :: b :: rest =>
    let n := ofDigits 10 [a, b]
    if a.isDigit && b.isDigit && low ≤ n && n ≤ high then some (n, rest) else none
  | _ => none

/-- What follows one given character. -/
def mark? (c : Char) : List Char → Option (List Char)
  | d :: rest => if c = d then some rest else none
  | [] => none

/-- The number of days of a month. -/
def daysOfMonth (year month : Nat) : Nat :=
  if month = 2 then
    if year % 4 = 0 ∧ (year % 100 ≠ 0 ∨ year % 400 = 0) then 29 else 28
  else if month = 4 ∨ month = 6 ∨ month = 9 ∨ month = 11 then 30
  else 31

/-- What follows a date. -/
def afterDate? (text : List Char) : Option (List Char) := do
  let (century, text) ← twoDigits? 0 99 text
  let (year, text) ← twoDigits? 0 99 text
  let text ← mark? '-' text
  let (month, text) ← twoDigits? 1 12 text
  let text ← mark? '-' text
  let (_, text) ← twoDigits? 1 (daysOfMonth (100 * century + year) month) text
  return text

/-- What follows the part of a second, if there is one. -/
def afterFraction? : List Char → Option (List Char)
  | '.' :: c :: rest => if c.isDigit then some (rest.dropWhile Char.isDigit) else none
  | '.' :: [] => none
  | text => some text

/-- What follows a time of day. -/
def afterTime? (text : List Char) : Option (List Char) := do
  let (_, text) ← twoDigits? 0 23 text
  let text ← mark? ':' text
  let (_, text) ← twoDigits? 0 59 text
  let text ← mark? ':' text
  let (_, text) ← twoDigits? 0 60 text
  afterFraction? text

/-- Whether a text is nothing or an offset from universal time. -/
def isOffset : List Char → Bool
  | [] => true
  | c :: rest =>
    if c = 'Z' ∨ c = 'z' then rest.isEmpty
    else if c = '+' ∨ c = '-' then
      (do
        let (_, text) ← twoDigits? 0 23 rest
        let text ← mark? ':' text
        let (_, text) ← twoDigits? 0 59 text
        guard text.isEmpty).isSome
    else false

/-- Whether a text is a time of day with or without an offset. -/
def isTimeWithOffset (text : List Char) : Bool :=
  (afterTime? text).any isOffset

/-- Whether a word is a date, a time of day, or both with a letter between them. -/
def isTime (text : List Char) : Bool :=
  match afterDate? text with
  | some [] => true
  | some (c :: rest) => (c == 'T' || c == 't') && isTimeWithOffset rest
  | none => (afterTime? text).any List.isEmpty

/-! ### Words -/

/-- Characters of an unquoted value. -/
def isWordChar (c : Char) : Bool :=
  c.isAlphanum || c == '+' || c == '-' || c == '_' || c == '.' || c == ':'

/-- The meaning of a word. -/
def Word.read? (text : List Char) : Option Word :=
  if text = ['t', 'r', 'u', 'e'] then some (.boolean true)
  else if text = ['f', 'a', 'l', 's', 'e'] then some (.boolean false)
  else if isTime text then some (.time (String.ofList text))
  else number? text

/-- Take an unquoted value. -/
def takeWord (text : List Char) : Take Word text := do
  let ⟨word, rest, h⟩ ← takeRun isWordChar text
  let alone : Take Word text := (Word.read? word).map fun w => ⟨w, rest, h⟩
  if afterDate? word = some [] then
    match hr : rest with
    | ' ' :: c :: after =>
      if c.isDigit then do
        let ⟨time, rest', _⟩ ← takeRun isWordChar (c :: after)
        guard (isTimeWithOffset time)
        return ⟨.time (String.ofList (word ++ ' ' :: time)), rest',
          by rw [hr] at h; simp only [List.length_cons] at *; omega⟩
      else alone
    | _ => alone
  else alone

end SchemaForge.Toml
