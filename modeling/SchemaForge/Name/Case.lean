import SchemaForge.Text.LetterCase
import SchemaForge.Text.Alphanumeric

/-!
# Letter case of names

Names of tables and models come in any spelling; generated identifiers and file names follow one
of four.  A word of a name starts after a character that is not alphanumeric, after a digit, and
at a capital that follows a small letter.  Letters change case by the rules of ASCII; letters of
other scripts stay as they are.

## Main definitions

* `Name.pascal`, `Name.camel` — `UserProfile`, `userProfile`.
* `Name.kebab` — `user-profile`.
* `Name.snake` — `user_profile`, for the names of projects.
-/

namespace SchemaForge.Name

open Text

/-- A name without the characters at its end that belong to no word. -/
def dropTail : List Char → List Char
  | [] => []
  | c :: rest =>
    match dropTail rest with
    | [] => if isAlphanumeric c then [c] else []
    | kept => c :: kept

@[simp] theorem dropTail_nil : dropTail [] = [] := rfl

/-- Run the words of a name together, each with a capital where `atWord` holds or a capital
follows the small letter `last`.  Characters of no word are dropped; they start a new word only
once something has been written, which `started` records. -/
def joinWords (atWord started : Bool) (last : Char) : List Char → List Char
  | [] => []
  | c :: rest =>
    if !isAlphanumeric c then joinWords (atWord || started) started last rest
    else if isNumeric c then c :: joinWords true true last rest
    else if atWord || (isLowercase last && isUppercase c) then
      c.toUpper :: joinWords false true last rest
    else c.toLower :: joinWords false true c rest

@[simp] theorem joinWords_nil (atWord started : Bool) (last : Char) :
    joinWords atWord started last [] = [] := rfl

/-- `UserProfile`: every word with a capital. -/
def pascalChars (name : List Char) : List Char :=
  joinWords true false ' ' (dropTail name)

/-- `userProfile`: every word but the first with a capital. -/
def camelChars (name : List Char) : List Char :=
  joinWords false false ' ' (dropTail name)

/-- Whether the character of `name` at an index is a small letter; no character counts as a
capital. -/
def lowercaseAt (name : List Char) (index : Nat) : Bool :=
  match name[index]? with
  | some c => isLowercase c
  | none => false

/-- Write the words of a name in small letters with hyphens between them.  A character that is
its own capital starts a word when a neighbour is small; the neighbours are looked up in the
whole `name`, one before and one after the byte offset of the character. -/
def hyphenate (name : List Char) (atWord : Bool) (offset : Nat) : List Char → List Char
  | [] => []
  | c :: rest =>
    let next := offset + c.utf8Size
    if !isAlphanumeric c then
      if atWord then hyphenate name true next rest else '-' :: hyphenate name true next rest
    else if !atWord && c == c.toUpper &&
        (lowercaseAt name (offset + 1) || lowercaseAt name (offset - 1)) then
      '-' :: c.toLower :: hyphenate name false next rest
    else c.toLower :: hyphenate name false next rest

/-- `user-profile`: small letters and hyphens. -/
def kebabChars (name : List Char) : List Char :=
  hyphenate name true 0 (dropTail name)

/-- Whether a word ends between the first of these characters and the second: at a change
between small letters, capitals and digits, or before the last capital of a run that a small
letter follows. -/
def wordEnds : List Char → Bool
  | c :: d :: rest =>
    (isLowercase c && (isUppercase d || d.isDigit)) ||
    (isUppercase c && d.isDigit) ||
    (c.isDigit && (isLowercase d || isUppercase d)) ||
    (isUppercase c && isUppercase d && rest.head?.any isLowercase)
  | _ => false

/-- `user_profile`: small letters, with an underscore for each separator and at each end of a
word. -/
def snakeChars : List Char → List Char
  | [] => []
  | c :: rest =>
    if c = '_' ∨ c = '-' ∨ c = ' ' then '_' :: snakeChars rest
    else if wordEnds (c :: rest) then lowercaseChar c ++ '_' :: snakeChars rest
    else lowercaseChar c ++ snakeChars rest

@[simp] theorem snakeChars_nil : snakeChars [] = [] := rfl

/-- `UserProfile`. -/
def pascal (name : String) : String :=
  String.ofList (pascalChars name.toList)

/-- `userProfile`. -/
def camel (name : String) : String :=
  String.ofList (camelChars name.toList)

/-- `user-profile`. -/
def kebab (name : String) : String :=
  String.ofList (kebabChars name.toList)

/-- `user_profile`. -/
def snake (name : String) : String :=
  String.ofList (snakeChars name.toList)

end SchemaForge.Name
