import SchemaForge.Regex.CharSet
import SchemaForge.Regex.Group

/-!
# Well-formed regular expressions

An expression is a row of parts: characters, classes, places, sets in brackets and groups, each
perhaps repeated.  Bars part it into branches.  There are no back references and no conditions on
what stands before or behind.  An opening brace is refused, unless it stands for itself: an
expression stands in braces, so that nothing in it could close another one.

## Main definitions

* `Part`, `Level` — what has been read of an expression and of each open group.
* `isWellFormed` — whether a text is a regular expression.
-/

namespace SchemaForge.Regex

/-- A part of an expression. -/
structure Part where
  /-- How deep it nests. -/
  depth : Nat
  /-- Whether it can be repeated; flags cannot. -/
  repeats : Bool := true
  deriving DecidableEq, Repr, Inhabited

/-- The inside of a group that is still open, or the outermost level. -/
structure Level where
  /-- The flags that count here. -/
  flags : Flags := {}
  /-- How deep the branches in front of the last bar nest, the last one first. -/
  branches : List Nat := []
  /-- The parts behind that bar, the last one first. -/
  row : List Part := []
  deriving DecidableEq, Repr, Inhabited

namespace Level

/-- A level with one more part. -/
def add (l : Level) (part : Part) : Level :=
  { l with row := part :: l.row }

/-- How deep each branch of a level nests. -/
def allBranches (l : Level) : List Nat :=
  sideBySide (l.row.map Part.depth) :: l.branches

/-- A level behind one more bar. -/
def bar (l : Level) : Level :=
  { l with branches := l.allBranches, row := [] }

/-- How deep a level nests. -/
def depth (l : Level) : Nat :=
  sideBySide l.allBranches

/-- A level with its last part repeated, if there is one that can be. -/
def repeat? (l : Level) : Option Level :=
  match l.row with
  | ⟨depth, true⟩ :: row => some { l with row := ⟨depth + 1, true⟩ :: row }
  | _ => none

end Level

/-- What a repetition leaves over: a question mark behind it is its own. -/
def skipLazy : List Char → List Char
  | '?' :: rest => rest
  | text => text

theorem skipLazy_length_le (text : List Char) : (skipLazy text).length ≤ text.length := by
  unfold skipLazy
  split
  · exact Nat.le_succ _
  · exact Nat.le_refl _

/-- Whether a text is the rest of an expression, from inside of some levels.  A name of a group is
given once. -/
def isRest (names : List (List Char)) (outer : List Level) (l : Level) (text : List Char) :
    Bool :=
  match hd : l.flags.skip text with
  | [] => outer.isEmpty && l.depth ≤ nestingLimit
  | '(' :: rest =>
    have := l.flags.length_lt_of_skip hd
    match takeGroupHead l.flags rest with
    | some ⟨.setFlags flags, rest', _⟩ =>
      isRest names outer { l.add ⟨0, false⟩ with flags } rest'
    | some ⟨.group flags name, rest', _⟩ =>
      !(name.any names.contains) && isRest (name.toList ++ names) (l :: outer) { flags } rest'
    | none => false
  | ')' :: rest =>
    have := l.flags.length_lt_of_skip hd
    match outer with
    | o :: outer => isRest names outer (o.add ⟨l.depth + 1, true⟩) rest
    | [] => false
  | '[' :: rest =>
    have := l.flags.length_lt_of_skip hd
    match takeSet l.flags rest with
    | some ⟨depth, rest', _⟩ => isRest names outer (l.add ⟨depth, true⟩) rest'
    | none => false
  | '\\' :: rest =>
    have := l.flags.length_lt_of_skip hd
    match takeEscape l.flags rest with
    | some ⟨e, rest', _⟩ => e.isPart l.flags && isRest names outer (l.add ⟨0, true⟩) rest'
    | none => false
  | '|' :: rest =>
    have := l.flags.length_lt_of_skip hd
    isRest names outer l.bar rest
  | c :: rest =>
    have := l.flags.length_lt_of_skip hd
    if c == '?' || c == '*' || c == '+' then
      have := skipLazy_length_le rest
      match l.repeat? with
      | some l => isRest names outer l (skipLazy rest)
      | none => false
    else
      c != '\x7b' && (c != '.' || l.flags.unicode) && isRest names outer (l.add ⟨0, true⟩) rest
termination_by text.length

/-- Whether a text is a regular expression. -/
def isWellFormed (text : List Char) : Bool :=
  isRest [] [] {} text

end SchemaForge.Regex
