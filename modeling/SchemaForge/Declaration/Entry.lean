import SchemaForge.Declaration.Chunk
import SchemaForge.Text.Blank
import SchemaForge.Text.Position

/-!
# Entries between brackets

The entries of an object stand between commas that are outside all brackets.  A comment in an
entry is read as a space.

## Main definitions

* `splitClosing` — the chunks inside a bracket, and those behind the bracket that closes it.
* `splitCommas` — the groups of chunks between the outer commas.
* `Entry`, `entries` — the entries of an object, each with its text and its place.
-/

namespace SchemaForge.Declaration

open Text

/-- The brackets that open; which kind does not matter. -/
def isOpening (c : Char) : Bool :=
  c == '(' || c == '\x7b' || c == '['

/-- The brackets that close. -/
def isClosing (c : Char) : Bool :=
  c == ')' || c == '\x7d' || c == ']'

/-- Split chunks at the bracket that closes the one in front of them, when `depth` more have been
opened since.  There is none if the chunks end before, or inside a literal or a comment. -/
def splitClosing (depth : Nat) : List Chunk → Option (List Chunk × List Chunk)
  | [] => none
  | .char c :: rest =>
    if isOpening c then
      (splitClosing (depth + 1) rest).map fun (inside, rest) => (.char c :: inside, rest)
    else if isClosing c then
      match depth with
      | 0 => some ([], rest)
      | depth + 1 =>
        (splitClosing depth rest).map fun (inside, rest) => (.char c :: inside, rest)
    else (splitClosing depth rest).map fun (inside, rest) => (.char c :: inside, rest)
  | .literal t :: rest =>
    (splitClosing depth rest).map fun (inside, rest) => (.literal t :: inside, rest)
  | .comment t :: rest =>
    (splitClosing depth rest).map fun (inside, rest) => (.comment t :: inside, rest)
  | .openLiteral _ :: _ => none
  | .openComment _ :: _ => none

/-- The depth of brackets after a chunk; it does not sink below the outermost. -/
def Chunk.depthAfter (depth : Nat) : Chunk → Nat
  | char c =>
    if isOpening c then depth + 1 else if isClosing c then depth - 1 else depth
  | _ => depth

/-- Put a chunk in front of the first group of a row of groups. -/
def consFirst (chunk : Chunk) : List (List Chunk) → List (List Chunk)
  | [] => [[chunk]]
  | group :: groups => (chunk :: group) :: groups

/-- The groups of chunks between the commas outside all brackets, starting at a depth; one more
than there are such commas. -/
def splitCommas (depth : Nat) : List Chunk → List (List Chunk)
  | [] => [[]]
  | c :: rest =>
    if c = .char ',' ∧ depth = 0 then [] :: splitCommas 0 rest
    else consFirst c (splitCommas (c.depthAfter depth) rest)

/-- The text of a chunk inside an entry: a comment is read as a space. -/
def Chunk.bareText : Chunk → List Char
  | comment _ => [' ']
  | openComment _ => [' ']
  | other => other.text

/-- The blanks of ASCII that may stand in front of an entry. -/
def isAsciiBlank (c : Char) : Bool :=
  c == ' ' || c == '\t' || c == '\n' || c == '\x0c' || c == '\r'

/-- Whether a chunk may stand in front of an entry: a comment, a blank of ASCII or a comma. -/
def Chunk.isFiller : Chunk → Bool
  | char c => isAsciiBlank c || c == ','
  | literal _ => false
  | comment _ => true
  | openLiteral _ => false
  | openComment _ => true

/-- The position of the first chunk of a group that is no filler. -/
def firstPosition? (p : Position) : List Chunk → Option Position
  | [] => none
  | c :: rest => if c.isFiller then firstPosition? (p.after c.text) rest else some p

/-- An entry of an object. -/
structure Entry where
  /-- Its text, without comments and outer blanks. -/
  text : List Char
  /-- Where it starts. -/
  position : Position
  deriving DecidableEq, Repr, Inhabited

/-- The entry that a group of chunks is, when the group starts at `p`; a group of fillers and
blanks is none. -/
def entryAt (p : Position) (group : List Chunk) : Option Entry :=
  match trim (group.flatMap Chunk.bareText), firstPosition? p group with
  | [], _ => none
  | text, some position => some ⟨text, position⟩
  | _, none => none

/-- The entries of a row of groups, of which the first starts at `p` and each of the others
behind a comma. -/
def groupEntries (p : Position) : List (List Chunk) → List Entry
  | [] => []
  | group :: groups =>
    (entryAt p group).toList ++
      groupEntries ((p.after (group.flatMap Chunk.text)).next ',') groups

/-- The entries of an object whose inside starts at `p`. -/
def entries (p : Position) (inside : List Chunk) : List Entry :=
  groupEntries p (splitCommas 0 inside)

end SchemaForge.Declaration
