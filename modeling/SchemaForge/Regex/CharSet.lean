import SchemaForge.Regex.Escape

/-!
# Regular expressions: sets in brackets

A set in brackets lists characters, ranges and classes of characters, and other sets; operators
combine what stands on either side of them.

## Main definitions

* `takeRange` — a member, or a range from one to another.
* `takeNamedClass` — a class by its name, such as `[:alpha:]`.
* `takeSet` — a whole set, with how deep it nests.
-/

namespace SchemaForge.Regex

open Text (Taken Take TakeSome)

/-! ### Members -/

/-- Take one member of a set. -/
def takeMember (f : Flags) (text : List Char) : Take Member text :=
  match text with
  | '\\' :: rest => do
    let ⟨e, rest', h⟩ ← takeEscape f rest
    return ⟨← e.member? f, rest', Nat.lt_succ_of_lt h⟩
  | c :: rest => (Member.ofChar? f c).map fun m => .ofHead m rest
  | [] => none

/-- Whether one member may reach to another: both are characters, in order. -/
def Member.reaches : Member → Member → Bool
  | char a, char b => a ≤ b
  | _, _ => false

/-- Take a member, or a range from one to another.  A hyphen in front of the closing bracket or of
another hyphen makes no range. -/
def takeRange (f : Flags) (text : List Char) : Take Unit text := do
  let ⟨first, after, _⟩ ← takeMember f text
  match hm : f.skip after with
  | '-' :: rest =>
    if f.peek rest == some ']' || f.peek rest == some '-' then
      have := f.length_le_of_skip hm
      return ⟨(), '-' :: rest, by omega⟩
    else
      have := f.length_lt_of_skip hm
      have := f.skip_length_le rest
      let ⟨last, rest', _⟩ ← takeMember f (f.skip rest)
      if first.reaches last then return ⟨(), rest', by omega⟩ else none
  | rest =>
    have := f.length_le_of_skip hm
    return ⟨(), rest, by omega⟩

/-- The names of classes. -/
def classNames : List String :=
  ["alnum", "alpha", "ascii", "blank", "cntrl", "digit", "graph", "lower", "print", "punct",
    "space", "upper", "word", "xdigit"]

/-- Take the name of a class and the two marks that close it. -/
def takeClassName (text : List Char) : Take Unit text :=
  match h : text.dropWhile (· != ':') with
  | ':' :: ']' :: rest =>
    if classNames.contains (String.ofList (text.takeWhile (· != ':'))) then
      some ⟨(), rest, by
        have := Text.dropWhile_length_le (· != ':') text
        rw [h] at this
        simp only [List.length_cons] at this
        omega⟩
    else none
  | _ => none

/-- Take a class by its name behind its opening bracket: whether a circumflex negates it. -/
def takeNamedClass (text : List Char) : Take Bool text :=
  match text with
  | ':' :: '^' :: rest => do
    let ⟨_, rest', h⟩ ← takeClassName rest
    return ⟨true, rest', by simp only [List.length_cons]; omega⟩
  | ':' :: rest => do
    let ⟨_, rest', h⟩ ← takeClassName rest
    return ⟨false, rest', Nat.lt_succ_of_lt h⟩
  | _ => none

/-! ### Sets -/

/-- A set of which the closing bracket is still to come. -/
structure OpenSet where
  /-- How deep the members behind the last operator nest, the last one first. -/
  members : List Nat
  /-- How deep what stands in front of that operator nests. -/
  operand : Option Nat
  deriving DecidableEq, Repr, Inhabited

/-- A set with one more member. -/
def OpenSet.add (s : OpenSet) (depth : Nat) : OpenSet :=
  { s with members := depth :: s.members }

/-- How deep the inside of a set nests. -/
def OpenSet.depth (s : OpenSet) : Nat :=
  match s.operand with
  | none => sideBySide s.members
  | some left => max left (sideBySide s.members) + 1

/-- A set behind an operator. -/
def OpenSet.combine (s : OpenSet) : OpenSet :=
  ⟨[], some s.depth⟩

/-- Take the hyphens that open a set, and a closing bracket if it comes first: they stand for
themselves. -/
def takeLeading (f : Flags) (s : OpenSet) (text : List Char) : TakeSome OpenSet text :=
  match hd : f.skip text with
  | '-' :: rest => do
    have := f.length_lt_of_skip hd
    let t ← takeLeading f (s.add 0) rest
    return t.weaken (by omega)
  | ']' :: rest =>
    if s.members.isEmpty then
      some ((Taken.ofHead (s.add 0) rest).weaken (Nat.le_succ_of_le (f.length_lt_of_skip hd)))
    else
      some ((Taken.ofHead s (']' :: rest)).weaken (Nat.succ_le_succ (f.length_le_of_skip hd)))
  | rest => some ((Taken.ofHead s rest).weaken (Nat.succ_le_succ (f.length_le_of_skip hd)))
termination_by text.length

/-- Take what opens a set behind its bracket.  Where characters are bytes, a set may not be
negated: it would match parts of characters. -/
def takeOpening (f : Flags) (text : List Char) : TakeSome OpenSet text :=
  match hd : f.skip text with
  | '^' :: rest =>
    if f.unicode then do
      let t ← takeLeading f ⟨[], none⟩ rest
      return t.weaken (Nat.le_succ_of_le (f.length_lt_of_skip hd))
    else none
  | rest => do
    let t ← takeLeading f ⟨[], none⟩ rest
    return t.weaken (Nat.succ_le_succ (f.length_le_of_skip hd))

/-- Take the rest of a set inside of others, and how deep the outermost nests. -/
def takeMembers (f : Flags) (outer : List OpenSet) (s : OpenSet) (text : List Char) :
    Take Nat text :=
  match hd : f.skip text with
  | [] => none
  | '[' :: rest =>
    have := f.length_lt_of_skip hd
    match takeNamedClass rest with
    | some ⟨negated, rest', _⟩ => do
      if negated && !f.unicode then none else
        let t ← takeMembers f outer (s.add 0) rest'
        return t.weaken (by omega)
    | none => do
      let ⟨inner, rest', _⟩ ← takeOpening f rest
      let t ← takeMembers f (s :: outer) inner rest'
      return t.weaken (by omega)
  | ']' :: rest =>
    have := f.length_lt_of_skip hd
    match outer with
    | [] => some ((Taken.ofHead (s.depth + 1) rest).weaken this)
    | o :: outer => do
      let t ← takeMembers f outer (o.add (s.depth + 1)) rest
      return t.weaken (by omega)
  | c :: rest =>
    have := f.length_lt_of_skip hd
    if (c == '&' || c == '-' || c == '~') && rest.head? == some c then do
      have := List.length_tail (l := rest)
      let t ← takeMembers f outer s.combine rest.tail
      return t.weaken (by omega)
    else do
      let ⟨_, rest', h⟩ ← takeRange f (c :: rest)
      have := Nat.lt_of_lt_of_le h (f.length_le_of_skip hd)
      let t ← takeMembers f outer (s.add 0) rest'
      return t.weaken (by omega)
termination_by text.length

/-- Take a set behind its opening bracket, and how deep it nests. -/
def takeSet (f : Flags) (text : List Char) : Take Nat text := do
  let ⟨s, rest, _⟩ ← takeOpening f text
  let t ← takeMembers f [] s rest
  return t.weaken (by omega)

end SchemaForge.Regex
