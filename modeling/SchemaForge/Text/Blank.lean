/-!
# Blank characters

The Unicode property White_Space, and the operations on text that rest on it.

## Main definitions

* `isBlank` — the class.
* `trimStart`, `trimEnd`, `trim` — a text without the blanks at its ends.
* `blankWords` — the pieces of a text between its blanks.
* `collapse` — those pieces again, one space apart.
-/

namespace SchemaForge.Text

/-- Blanks of every script. -/
def isBlank (c : Char) : Bool :=
  let n := c.toNat
  (9 ≤ n && n ≤ 13) || n == 0x20 || n == 0x85 || n == 0xA0 || n == 0x1680 ||
    (0x2000 ≤ n && n ≤ 0x200A) || n == 0x2028 || n == 0x2029 || n == 0x202F ||
    n == 0x205F || n == 0x3000

/-- A text without its leading blanks. -/
def trimStart (text : List Char) : List Char :=
  text.dropWhile isBlank

/-- A text without its trailing blanks. -/
def trimEnd : List Char → List Char
  | [] => []
  | c :: rest =>
    match trimEnd rest with
    | [] => if isBlank c then [] else [c]
    | kept => c :: kept

/-- A text without the blanks at either end. -/
def trim (text : List Char) : List Char :=
  trimEnd (trimStart text)

/-- The pieces of a text between its blanks, given the piece read so far. -/
def blankWordsFrom (word : List Char) : List Char → List (List Char)
  | [] => if word.isEmpty then [] else [word]
  | c :: rest =>
    if isBlank c then
      if word.isEmpty then blankWordsFrom [] rest else word :: blankWordsFrom [] rest
    else blankWordsFrom (word ++ [c]) rest

/-- The pieces of a text between its blanks. -/
def blankWords (text : List Char) : List (List Char) :=
  blankWordsFrom [] text

/-- A text with every run of blanks between its words made one space. -/
def collapse (text : List Char) : List Char :=
  [' '].intercalate (blankWords text)

@[simp] theorem trimStart_nil : trimStart [] = [] := rfl

@[simp] theorem trimEnd_nil : trimEnd [] = [] := rfl

@[simp] theorem trim_nil : trim [] = [] := rfl

end SchemaForge.Text
