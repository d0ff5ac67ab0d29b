/-!
# Texts in UTF-8

Some widths and places count the bytes of a text, not its characters.  A slice between two byte
offsets starts and ends between characters: there is none out of range, and none that cuts a
character.

## Main definitions

* `byteSize` — the number of bytes of a text.
* `firstBytes`, `dropBytes` — the characters in front of a number of bytes, and behind it.
* `utf8` — the bytes of a text.
* `byteChar` — the character that a byte is by itself.
* `cutAt?`, `slice?` — a text cut at a byte offset, and between two.
-/

namespace SchemaForge.Text

/-- The number of bytes of a text. -/
def byteSize (text : List Char) : Nat :=
  text.foldr (fun c size => c.utf8Size + size) 0

@[simp] theorem byteSize_nil : byteSize [] = 0 := rfl

@[simp] theorem byteSize_cons (c : Char) (text : List Char) :
    byteSize (c :: text) = c.utf8Size + byteSize text := rfl

/-- The characters at the head of a text that fit into a number of bytes. -/
def firstBytes : Nat → List Char → List Char
  | _, [] => []
  | count, c :: rest =>
    if c.utf8Size ≤ count then c :: firstBytes (count - c.utf8Size) rest else []

/-- A text without the characters that start in its first bytes. -/
def dropBytes : Nat → List Char → List Char
  | _, [] => []
  | 0, text => text
  | count + 1, c :: rest => dropBytes (count + 1 - c.utf8Size) rest

/-- The bytes of a text. -/
def utf8 (text : List Char) : List UInt8 :=
  text.flatMap String.utf8EncodeChar

/-- The character that a byte is by itself.  A byte of a longer character is none of ASCII. -/
def byteChar (b : UInt8) : Char :=
  Char.ofNat b.toNat

/-- A text cut at a byte offset, unless that is out of range or inside a character. -/
def cutAt? : Nat → List Char → Option (List Char × List Char)
  | 0, text => some ([], text)
  | _ + 1, [] => none
  | n + 1, c :: rest =>
    if c.utf8Size ≤ n + 1 then
      (cutAt? (n + 1 - c.utf8Size) rest).map fun (front, back) => (c :: front, back)
    else none

/-- The slice of a text between two byte offsets. -/
def slice? (text : List Char) (start stop : Nat) : Option (List Char) := do
  guard (start ≤ stop)
  let (_, behind) ← cutAt? start text
  let (inside, _) ← cutAt? (stop - start) behind
  return inside

end SchemaForge.Text
