import SchemaForge.Regex.Basic
import SchemaForge.Text.Alphanumeric
import SchemaForge.Text.Search

/-!
# Regular expressions: the heads of groups

A parenthesis opens a group, which may have a name or flags of its own, or it sets flags for what
follows.

## Main definitions

* `GroupHead` — what a parenthesis opens.
* `takeGroupHead` — what stands between a parenthesis and the inside of its group.
-/

namespace SchemaForge.Regex

open Text (Taken Take TakeSome)

/-- What a parenthesis opens. -/
inductive GroupHead where
  /-- A group under these flags, perhaps with a name. -/
  | group (flags : Flags) (name : Option (List Char))
  /-- No group: these flags count from here on. -/
  | setFlags (flags : Flags)
  deriving DecidableEq, Repr, Inhabited

/-! ### Flags -/

/-- The letters of the flags. -/
def flagLetters : List Char := ['i', 'm', 's', 'U', 'u', 'R', 'x']

/-- Whether a text switches flags: letters, those to switch off behind a hyphen, each of them
once. -/
def isFlagText (text : List Char) : Bool :=
  text.all (fun c => c == '-' || flagLetters.contains c) && text.all (text.count · == 1) &&
    text.getLast? != some '-'

/-- The flags that a text makes of others. -/
def Flags.switch (f : Flags) (text : List Char) : Flags :=
  let on := text.takeWhile (· != '-')
  let value (letter : Char) (current : Bool) : Bool :=
    if text.contains letter then on.contains letter else current
  ⟨value 'u' f.unicode, value 'x' f.spaced⟩

/-- Take flags behind a question mark and the sign that ends them. -/
def takeFlags (f : Flags) (text : List Char) : Take GroupHead text :=
  let letters := text.takeWhile fun c => c != ':' && c != ')'
  match h : text.dropWhile fun c => c != ':' && c != ')' with
  | c :: rest =>
    if isFlagText letters && !(letters.isEmpty && c == ')') then
      let flags := f.switch letters
      some ⟨if c == ')' then .setFlags flags else .group flags none, rest, by
        have := Text.dropWhile_length_le (fun c => c != ':' && c != ')') text
        rw [h] at this
        exact this⟩
    else none
  | [] => none

/-! ### Names -/

/-- Characters that the name of a group may start with. -/
def isNameStart (c : Char) : Bool :=
  c == '_' || Text.isAlphabetic c

/-- Characters that the name of a group may go on with. -/
def isNamePart (c : Char) : Bool :=
  c == '_' || c == '.' || c == '[' || c == ']' || Text.isAlphanumeric c

/-- Whether a text is the name of a group. -/
def isGroupName : List Char → Bool
  | c :: rest => isNameStart c && rest.all isNamePart
  | [] => false

/-- Take the name of a group and the bracket that closes it. -/
def takeName (f : Flags) (text : List Char) : Take GroupHead text :=
  let name := text.takeWhile (· != '>')
  match h : text.dropWhile (· != '>') with
  | _ :: rest =>
    if isGroupName name then
      some ⟨.group f (some name), rest, by
        have := Text.dropWhile_length_le (· != '>') text
        rw [h] at this
        exact this⟩
    else none
  | [] => none

/-! ### Heads -/

/-- Take what stands behind a question mark: a name in angle brackets, or flags. -/
def takeMarked (f : Flags) (text : List Char) : Take GroupHead text :=
  match text with
  | 'P' :: '<' :: rest => do
    let t ← takeName f rest
    return t.behindOne.behindOne
  | '<' :: rest => do
    let t ← takeName f rest
    return t.behindOne
  | text => takeFlags f text

/-- Take what stands between a parenthesis and the inside of its group. -/
def takeGroupHead (f : Flags) (text : List Char) : TakeSome GroupHead text :=
  match hd : f.skip text with
  | '?' :: rest => do
    let t ← takeMarked f rest
    return t.weaken (Nat.le_succ_of_le (Nat.le_of_lt (f.length_lt_of_skip hd)))
  | rest =>
    have := f.length_le_of_skip hd
    some ((Taken.ofHead (.group f none) rest).weaken (by omega))

end SchemaForge.Regex
