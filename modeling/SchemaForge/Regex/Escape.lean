import SchemaForge.Regex.Basic
import SchemaForge.Text.Escape
import SchemaForge.Text.Search

/-!
# Regular expressions: escapes

A backslash makes a sign stand for itself, and a letter for something else: a control character, a
character by its number, a class of characters, or a place between characters.

## Main definitions

* `Escape`, `takeEscape` — what stands behind a backslash.
* `Escape.isPart`, `Escape.member?` — what may stand alone, and what in brackets.
-/

namespace SchemaForge.Regex

open Text (Taken Take TakeSome)

/-- What a backslash and what follows it stand for. -/
inductive Escape where
  /-- A character; `byNumber` tells that two digits gave its number. -/
  | literal (c : Char) (byNumber : Bool)
  /-- The digits, the blanks or the word characters, or all others. -/
  | shorthand (negated : Bool)
  /-- The characters of a general category, or all others. -/
  | category
  /-- The start or the end of the text. -/
  | anchor
  /-- A place at the edge of a word, or away from it. -/
  | wordEdge
  deriving DecidableEq, Repr, Inhabited

/-- The control character that a letter stands for. -/
def controlChar? : Char → Option Char
  | 'a' => some '\x07'
  | 'f' => some '\x0c'
  | 't' => some '\t'
  | 'n' => some '\n'
  | 'r' => some '\r'
  | 'v' => some '\x0b'
  | _ => none

/-- What a single character behind a backslash stands for. -/
def Escape.ofChar? (c : Char) : Option Escape :=
  if c == 'd' || c == 's' || c == 'w' then some (.shorthand false)
  else if c == 'D' || c == 'S' || c == 'W' then some (.shorthand true)
  else if c == 'A' || c == 'z' then some .anchor
  else if c == 'b' || c == 'B' || c == '<' || c == '>' then some .wordEdge
  else if c.toNat < 128 && !c.isAlphanum then some (.literal c false)
  else (controlChar? c).map (.literal · false)

/-- The letters of the general categories, in capitals. -/
def categoryLetters : List Char := ['C', 'L', 'M', 'N', 'P', 'S', 'Z']

/-- Take a number of hexadecimal digits, behind a number that others gave. -/
def takeHex (f : Flags) (number : Nat) : (count : Nat) → (text : List Char) → TakeSome Nat text
  | 0, text => some (.ofHead number text)
  | count + 1, text =>
    match hd : f.skip text with
    | [] => none
    | d :: rest => do
      let digit ← Text.hexDigit? d
      let t ← takeHex f (16 * number + digit) count rest
      return t.weaken (Nat.le_succ_of_le (f.length_lt_of_skip hd))

/-- Take a character by its number of some hexadecimal digits. -/
def takeNumbered (f : Flags) (count : Nat) (text : List Char) :
    Option (Taken Escape (text.length + 1)) := do
  let ⟨number, rest, h⟩ ← takeHex f 0 count text
  return ⟨.literal (← Text.charOfNumber? number) (count == 2), rest, h⟩

/-- Take the letter of a general category. -/
def takeCategory (f : Flags) (text : List Char) : Option (Taken Escape (text.length + 1)) :=
  match hc : f.skip text with
  | c :: rest =>
    if categoryLetters.contains c.toUpper then
      some ⟨.category, rest, Nat.lt_succ_of_lt (f.length_lt_of_skip hc)⟩
    else none
  | [] => none

/-- Take what stands behind a backslash. -/
def takeEscape (f : Flags) (text : List Char) : Take Escape text :=
  match text with
  | 'x' :: rest => takeNumbered f 2 rest
  | 'u' :: rest => takeNumbered f 4 rest
  | 'U' :: rest => takeNumbered f 8 rest
  | 'p' :: rest => takeCategory f rest
  | 'P' :: rest => takeCategory f rest
  | c :: rest => (Escape.ofChar? c).map fun e => .ofHead e rest
  | [] => none

/-- Whether an escape may stand outside of brackets.  What could match a part of a character is
refused where characters are bytes; the edges of words are known only there. -/
def Escape.isPart (f : Flags) : Escape → Bool
  | literal c byNumber => f.unicode || !byNumber || c.toNat < 128
  | shorthand negated => f.unicode || !negated
  | category => f.unicode
  | anchor => true
  | wordEdge => !f.unicode

/-- A member of a set in brackets. -/
inductive Member where
  /-- A character. -/
  | char (c : Char)
  /-- A class of characters. -/
  | several
  deriving DecidableEq, Repr, Inhabited

/-- A character as a member of a set: where characters are bytes, only ASCII is known. -/
def Member.ofChar? (f : Flags) (c : Char) : Option Member :=
  if f.unicode || c.toNat < 128 then some (.char c) else none

/-- An escape as a member of a set in brackets.  Places between characters are none. -/
def Escape.member? (f : Flags) : Escape → Option Member
  | literal c _ => Member.ofChar? f c
  | shorthand negated => if f.unicode || !negated then some .several else none
  | category => if f.unicode then some .several else none
  | anchor => none
  | wordEdge => none

end SchemaForge.Regex
