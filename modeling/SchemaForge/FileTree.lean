import SchemaForge.FileSystem

/-!
# A file system in memory

Directories and files, without links: each has a location, which is the row of names that leads to
it from the root.  A path is walked name by name, and everything walked through has to be a
directory.

## Main definitions

* `FileNode`, `FileTree` — what stands at a location, and the whole.
* `FileTree.node?`, `FileTree.set` — look up and change one location.
* `FileTree.locate` — the location that a path leads to.
-/

namespace SchemaForge

/-- What stands at a location. -/
inductive FileNode where
  /-- A directory. -/
  | directory
  /-- A file of text. -/
  | text (s : String)
  /-- A file that does not hold text. -/
  | binary (bytes : List UInt8)
  deriving DecidableEq, Repr, Inhabited

/-- The file of some bytes: text if they spell one. -/
def FileNode.ofBytes (bytes : List UInt8) : FileNode :=
  match String.fromUTF8? ⟨bytes.toArray⟩ with
  | some s => .text s
  | none => .binary bytes

/-- The bytes that a file takes; a directory takes none. -/
def FileNode.size : FileNode → Nat
  | directory => 0
  | text s => s.utf8ByteSize
  | binary bytes => bytes.length

/-- The names that lead to a file or directory from the root. -/
abbrev Location := List String

/-- A file system in memory. -/
structure FileTree where
  /-- What stands where, the root apart. -/
  entries : List (Location × FileNode)
  /-- The directory that relative paths start from. -/
  current : Location
  deriving DecidableEq, Repr, Inhabited

namespace FileTree

/-! ### Locations -/

/-- What stands at a location.  The root is always a directory. -/
def node? (t : FileTree) (l : Location) : Option FileNode :=
  if l = [] then some .directory else t.entries.lookup l

/-- Entries with another or one more node at a location. -/
def setEntry (l : Location) (node : FileNode) :
    List (Location × FileNode) → List (Location × FileNode)
  | [] => [(l, node)]
  | (k, old) :: rest => if k = l then (k, node) :: rest else (k, old) :: setEntry l node rest

/-- The tree with another or one more node at a location. -/
def set (t : FileTree) (l : Location) (node : FileNode) : FileTree :=
  { t with entries := setEntry l node t.entries }

theorem lookup_setEntry_self (l : Location) (node : FileNode)
    (entries : List (Location × FileNode)) :
    (setEntry l node entries).lookup l = some node := by
  induction entries with
  | nil => simp [setEntry]
  | cons e rest ih =>
    obtain ⟨k, old⟩ := e
    by_cases h : k = l
    · simp [setEntry, h]
    · have hk : (l == k) = false := by simpa using fun hl => h hl.symm
      simp [setEntry, h, List.lookup_cons, hk, ih]

theorem lookup_setEntry_of_ne {k l : Location} (h : k ≠ l) (node : FileNode)
    (entries : List (Location × FileNode)) :
    (setEntry l node entries).lookup k = entries.lookup k := by
  induction entries with
  | nil =>
    have hk : (k == l) = false := by simpa using h
    simp [setEntry, List.lookup_cons, hk]
  | cons e rest ih =>
    obtain ⟨n, old⟩ := e
    by_cases hn : n = l
    · subst hn
      have hk : (k == n) = false := by simpa using h
      simp [setEntry, List.lookup_cons, hk]
    · simp [setEntry, hn, List.lookup_cons, ih]

/-- A node that was set is found. -/
@[simp] theorem node?_set_self (t : FileTree) {l : Location} (h : l ≠ []) (node : FileNode) :
    (t.set l node).node? l = some node := by
  simp [node?, set, h, lookup_setEntry_self]

/-- What stands elsewhere is as before. -/
theorem node?_set_of_ne (t : FileTree) {k l : Location} (h : k ≠ l) (node : FileNode) :
    (t.set l node).node? k = t.node? k := by
  simp [node?, set, lookup_setEntry_of_ne h]

/-! ### Paths -/

/-- The most bytes that a name may have. -/
def nameLimit : Nat := 255

/-- The most bytes that a path may have. -/
def pathLimit : Nat := 4095

/-- Walk on from a location, piece by piece.  What is walked through is a directory. -/
def walk (t : FileTree) (here : Location) : List (List Char) → Except OsError Location
  | [] => .ok here
  | piece :: rest =>
    match t.node? here with
    | none => .error .notFound
    | some .directory =>
      if piece = [] ∨ piece = ['.'] then t.walk here rest
      else if piece = ['.', '.'] then t.walk here.dropLast rest
      else
        let name := String.ofList piece
        if nameLimit < name.utf8ByteSize then .error .nameTooLong
        else t.walk (here ++ [name]) rest
    | some _ => .error .notDirectory

/-- The location that the pieces of a path lead to. -/
def locatePieces (t : FileTree) (p : Path) (pieces : List (List Char)) :
    Except OsError Location :=
  if p.text.toList.contains '\x00' then .error .nulCharacter
  else if p.text.isEmpty then .error .notFound
  else if pathLimit < p.text.utf8ByteSize then .error .nameTooLong
  else t.walk (if p.isAbsolute then [] else t.current) pieces

/-- The location that a path leads to, where nothing needs to stand yet. -/
def locate (t : FileTree) (p : Path) : Except OsError Location :=
  t.locatePieces p (Path.splitSlash p.text.toList)

/-- The location of a directory to be made: slashes at the end of its path do not ask for one that
is there. -/
def locateNew (t : FileTree) (p : Path) : Except OsError Location :=
  let pieces := Path.splitSlash p.text.toList
  t.locatePieces p (pieces.reverse.dropWhile List.isEmpty).reverse

/-- What stands at a path. -/
def nodeAt (t : FileTree) (p : Path) : Except OsError FileNode := do
  match t.node? (← t.locate p) with
  | some node => return node
  | none => .error .notFound

/-! ### Calls -/

/-- The text of the file at a path. -/
def read (t : FileTree) (p : Path) : Except OsError String := do
  match ← t.nodeAt p with
  | .text s => return s
  | .binary _ => .error .notText
  | .directory => .error .isDirectory

/-- Whether there is a directory at a path. -/
def hasDirectory (t : FileTree) (p : Path) : Bool :=
  match t.nodeAt p with
  | .ok .directory => true
  | _ => false

/-- Whether there is a file at a path. -/
def hasFile (t : FileTree) (p : Path) : Bool :=
  match t.nodeAt p with
  | .ok .directory => false
  | .ok _ => true
  | .error _ => false

/-- The tree with one more directory. -/
def makeDirectory (t : FileTree) (p : Path) : Except OsError FileTree := do
  let l ← t.locateNew p
  match t.node? l with
  | some _ => .error .alreadyExists
  | none => return t.set l .directory

/-- The tree with a file in place of another or none. -/
def putFile (t : FileTree) (p : Path) (node : FileNode) : Except OsError FileTree := do
  let l ← t.locate p
  match t.node? l with
  | some .directory => .error .isDirectory
  | _ => return t.set l node

/-- Answer a call that changes the tree if it succeeds. -/
def commit (call : FileTree → Except OsError FileTree) : StateM FileTree (Except OsError Unit) :=
  fun t =>
    match call t with
    | .ok t' => (.ok (), t')
    | .error e => (.error e, t)

/-- The path of a location. -/
def pathOf (l : Location) : Path :=
  ⟨"/" ++ "/".intercalate l⟩

instance : FileSystem (StateM FileTree) where
  currentDirectory := fun t => (pathOf t.current, t)
  isPresent p := fun t => ((t.nodeAt p).toBool, t)
  isFile p := fun t => (t.hasFile p, t)
  isDirectory p := fun t => (t.hasDirectory p, t)
  readText p := fun t => (t.read p, t)
  createDirectory p := commit (·.makeDirectory p)
  writeText p s := commit (·.putFile p (.text s))

/-! ### Setting up and looking at a tree -/

/-- The tree with a node at a path and all directories above it. -/
def place (t : FileTree) (p : Path) (node : FileNode) : FileTree :=
  let (_, t) := (FileSystem.createDirectories (p.parent?.getD ⟨""⟩) : StateM FileTree _).run t
  match node with
  | .directory => ((FileSystem.createDirectories p : StateM FileTree _).run t).2
  | file => (t.putFile p file).toOption.getD t

/-- The tree without what stands at a path and below it. -/
def remove (t : FileTree) (p : Path) : FileTree :=
  match t.locate p with
  | .ok l => { t with entries := t.entries.filter fun e => !l.isPrefixOf e.1 }
  | .error _ => t

/-- What stands below a location, by the names that lead there from it. -/
def below (t : FileTree) (l : Location) : List (Location × FileNode) :=
  t.entries.filterMap fun (k, node) =>
    if l.isPrefixOf k && l.length < k.length then some (k.drop l.length, node) else none

end FileTree

end SchemaForge
