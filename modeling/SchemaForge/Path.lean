/-!
# Paths

A path is kept as it is written; nothing is normalised.  What it means is its row of components:
repeated slashes, a slash at the end and the component `.` past the first mean nothing.

## Main definitions

* `Path`, `Path.join` — paths, and one path below another.
* `Path.components` — what a path means.
* `Path.parent?` — the path without its last component.
* `Path.withoutCurrent` — the path without a leading `.`.
-/

namespace SchemaForge

/-- A path as it is written. -/
structure Path where
  /-- Its text. -/
  text : String
  deriving DecidableEq, Repr, Inhabited

/-- A component of a path. -/
inductive Component where
  /-- The root of an absolute path. -/
  | root
  /-- A `.` in front of a relative path. -/
  | current
  /-- A `..` anywhere. -/
  | parent
  /-- A name. -/
  | name (name : String)
  deriving DecidableEq, Repr, Inhabited

namespace Path

/-- The pieces of a text between its slashes. -/
def splitSlash : List Char → List (List Char)
  | [] => [[]]
  | c :: rest =>
    if c = '/' then [] :: splitSlash rest
    else
      match splitSlash rest with
      | [] => [[c]]
      | piece :: pieces => (c :: piece) :: pieces

@[simp] theorem splitSlash_nil : splitSlash [] = [[]] := rfl

@[simp] theorem splitSlash_slash (rest : List Char) :
    splitSlash ('/' :: rest) = [] :: splitSlash rest := rfl

/-- Whether a path starts at the root. -/
def isAbsolute (p : Path) : Bool :=
  p.text.toList.head? == some '/'

/-- What a piece between slashes means past the first. -/
def pieceComponent? (piece : List Char) : Option Component :=
  if piece = [] ∨ piece = ['.'] then none
  else if piece = ['.', '.'] then some .parent
  else some (.name (String.ofList piece))

/-- What a path means. -/
def components (p : Path) : List Component :=
  let pieces := splitSlash p.text.toList
  let first : List Component :=
    if p.isAbsolute then [.root]
    else if pieces.head? = some ['.'] then [.current]
    else []
  first ++ pieces.filterMap pieceComponent?

/-- Whether two paths have the same components. -/
def same (p q : Path) : Bool :=
  p.components == q.components

/-- The path `q` below `p`; an absolute `q` stays as it is. -/
def join (p q : Path) : Path :=
  if q.isAbsolute || p.text.isEmpty then q
  else if p.text.toList.getLast? = some '/' then ⟨p.text ++ q.text⟩
  else ⟨p.text ++ "/" ++ q.text⟩

/-- The path of a name below `p`. -/
def child (p : Path) (name : String) : Path :=
  p.join ⟨name⟩

/-! ### Cutting paths -/

/-- A reversed text without the slashes and single dots at its end that mean nothing; a first
dot or slash stays. -/
def dropTrailing : List Char → List Char
  | ['/'] => ['/']
  | '/' :: rest => dropTrailing rest
  | '.' :: '/' :: rest => dropTrailing ('/' :: rest)
  | rest => rest

/-- A reversed text without its last component: the characters up to a slash. -/
def dropLast (reversed : List Char) : List Char :=
  dropTrailing (reversed.dropWhile (· ≠ '/'))

/-- The path without its last component, if it has one that is not the root. -/
def parent? (p : Path) : Option Path :=
  match p.components.getLast? with
  | none => none
  | some .root => none
  | some _ => some ⟨String.ofList (dropLast (dropTrailing p.text.toList.reverse)).reverse⟩

/-- A text without the slashes and single dots in front of it. -/
def dropLeading : List Char → List Char
  | '/' :: rest => dropLeading rest
  | ['.'] => []
  | '.' :: '/' :: rest => dropLeading rest
  | rest => rest

/-- The path without a leading `.`: the slashes and single dots behind it go too, and what means
nothing at the end.  Any other path stays as it is. -/
def withoutCurrent (p : Path) : Path :=
  match p.components with
  | .current :: _ =>
    ⟨String.ofList (dropTrailing (dropLeading p.text.toList).reverse).reverse⟩
  | _ => p

/-- The path and all above it, of which there are as many as it has components. -/
def ancestorsFrom : Nat → Path → List Path
  | 0, p => [p]
  | above + 1, p =>
    match p.parent? with
    | some parent => p :: ancestorsFrom above parent
    | none => [p]

/-- The path and all above it, the nearest first. -/
def ancestors (p : Path) : List Path :=
  ancestorsFrom p.components.length p

/-- A text without its first component. -/
def dropFirst : List Char → List Char
  | '/' :: rest => dropLeading rest
  | text => dropLeading (text.dropWhile (· ≠ '/'))

/-- A text without as many components. -/
def dropComponents : Nat → List Char → List Char
  | 0, text => text
  | n + 1, text => dropComponents n (dropFirst text)

/-- The path as seen from a directory that it lies in; any other path stays as it is. -/
def relativeTo (p root : Path) : Path :=
  if root.components.isPrefixOf p.components then
    let rest := dropComponents root.components.length p.text.toList
    ⟨String.ofList (dropTrailing rest.reverse).reverse⟩
  else p

/-- A component as it is written. -/
def componentText : Component → String
  | .root => "/"
  | .current => "."
  | .parent => ".."
  | .name name => name

/-- Two lists without what they start with in common. -/
def dropCommon {α : Type} [DecidableEq α] : List α → List α → List α × List α
  | a :: as, b :: bs => if a = b then dropCommon as bs else (a :: as, b :: bs)
  | as, bs => (as, bs)

/-- An absolute path as seen from a directory, by way of the directories above that if need be; as
it is, unless that is shorter. -/
def shownFrom (p directory : Path) : Path :=
  let (below, above) := dropCommon p.components directory.components
  let shown := above.map (fun _ => "..") ++ below.map componentText
  if shown.length < p.components.length then ⟨"/".intercalate shown⟩ else p

/-- A path below a root, unless it is absolute. -/
def resolve (root p : Path) : Path :=
  if p.isAbsolute then p else root.join p.withoutCurrent

end Path

end SchemaForge
