import SchemaForge.Declaration.Source
import SchemaForge.Text.Utf8

/-!
# Scanning by byte offsets

The scanners of program text go through its bytes, jump over literals and comments, and cut the
text at the offsets that they come to.  Every look at a byte and every cut is checked here: one
that is out of range or inside a character is a fault.  A scanner that reads the entries of an
object also has something to fall back on where a literal or a comment does not end, or a bracket
closes that was not opened; it may be told that to do so is a fault.

## Main definitions

* `itemAt` — the character, the literal or the comment at an offset.
* `findClosing` — the offset of the bracket that closes another.
* `splitEntries` — the entries between two offsets.
* `scanColumn`, `scanTables` — columns and tables, read with these scanners.
-/

namespace SchemaForge.Declaration

open Text

/-- What a scanner must not do. -/
inductive ScanFault where
  /-- Look at a byte out of range. -/
  | index
  /-- Cut a text out of range, or inside a character. -/
  | slice
  /-- Go on where a literal does not end. -/
  | openLiteral
  /-- Go on where a comment does not end. -/
  | openComment
  /-- Go on where a bracket closes that was not opened. -/
  | unopened
  deriving DecidableEq, Repr

/-- The slice of a text between two byte offsets. -/
def slice (text : List Char) (start stop : Nat) : Except ScanFault (List Char) :=
  match slice? text start stop with
  | some inside => .ok inside
  | none => .error .slice

/-- The bytes behind an offset. -/
def bytesFrom (bytes : List UInt8) (start : Nat) : Except ScanFault (List UInt8) :=
  if start ≤ bytes.length then .ok (bytes.drop start) else .error .slice

/-! ### Literals and comments -/

/-- The offset of the quote that closes a literal, searched for from an offset on; an escape is
two bytes. -/
def closingQuote? (bytes : List UInt8) (quote : UInt8) (i : Nat) : Option Nat :=
  if h : i < bytes.length then
    if byteChar bytes[i] = '\\' then closingQuote? bytes quote (i + 2)
    else if bytes[i] = quote then some i
    else closingQuote? bytes quote (i + 1)
  else none
termination_by bytes.length - i

/-- The offset of the line feed that ends a comment, or of the last byte. -/
def lineEnd (bytes : List UInt8) (start : Nat) : Except ScanFault Nat :=
  (bytesFrom bytes start).map fun rest =>
    match rest.findIdx? fun b => byteChar b = '\n' with
    | some n => start + n
    | none => bytes.length - 1

/-- The place of the mark that closes a block comment. -/
def closingMark? : List UInt8 → Option Nat
  | a :: b :: rest =>
    if byteChar a = '*' ∧ byteChar b = '/' then some 0
    else (closingMark? (b :: rest)).map (· + 1)
  | _ => none

/-- The offset of the last byte of a block comment, if it ends. -/
def blockEnd? (bytes : List UInt8) (start : Nat) : Except ScanFault (Option Nat) :=
  (bytesFrom bytes (start + 2)).map fun rest => (closingMark? rest).map (start + 2 + · + 1)

/-- What stands at an offset: a byte by itself, or a literal or a comment with the offset of its
last byte, if it ends. -/
inductive Item where
  /-- The character that a byte is by itself. -/
  | byte (c : Char)
  /-- A literal, with the offset of its closing quote. -/
  | literal (last : Option Nat)
  /-- A comment, with the offset of the end of its line or of its closing mark. -/
  | comment (last : Option Nat)
  deriving DecidableEq, Repr

/-- The offset of the last byte of a literal or a comment. -/
def Item.last? : Item → Option Nat
  | byte _ => none
  | literal last => last
  | comment last => last

/-- What stands at an offset. -/
def itemAt (bytes : List UInt8) (i : Nat) : Except ScanFault Item :=
  match bytes[i]? with
  | none => .error .index
  | some b =>
    if isQuote (byteChar b) then .ok (.literal (closingQuote? bytes b (i + 1)))
    else if byteChar b = '/' ∧ bytes[i + 1]?.map byteChar = some '/' then
      (lineEnd bytes i).map fun last => .comment (some last)
    else if byteChar b = '/' ∧ bytes[i + 1]?.map byteChar = some '*' then
      (blockEnd? bytes i).map .comment
    else .ok (.byte (byteChar b))

theorem le_of_closingQuote? {bytes : List UInt8} {quote : UInt8} {i last : Nat}
    (h : closingQuote? bytes quote i = some last) : i ≤ last := by
  fun_induction closingQuote? bytes quote i with
  | case1 i _ _ ih => exact Nat.le_trans (by omega) (ih h)
  | case2 => cases h; exact Nat.le_refl _
  | case3 i _ _ _ ih => exact Nat.le_trans (by omega) (ih h)
  | case4 => cases h

theorem le_of_lineEnd {bytes : List UInt8} {i last : Nat} (hi : i < bytes.length)
    (h : lineEnd bytes i = .ok last) : i ≤ last := by
  rw [lineEnd, bytesFrom, if_pos (Nat.le_of_lt hi)] at h
  rw [← Except.ok.inj h]
  dsimp only
  split
  · exact Nat.le_add_right i _
  · exact Nat.le_sub_one_of_lt hi

theorem le_of_blockEnd? {bytes : List UInt8} {i last : Nat}
    (h : blockEnd? bytes i = .ok (some last)) : i ≤ last := by
  rw [blockEnd?, bytesFrom] at h
  split at h
  · obtain ⟨n, -, hn⟩ := Option.map_eq_some_iff.1 (Except.ok.inj h)
    omega
  · cases h

/-- A literal or a comment does not end in front of its place. -/
theorem le_of_itemAt {bytes : List UInt8} {i last : Nat} {item : Item}
    (h : itemAt bytes i = .ok item) (hlast : item.last? = some last) : i ≤ last := by
  rw [itemAt] at h
  split at h
  · cases h
  · next b hb =>
    have hi : i < bytes.length := (List.getElem?_eq_some_iff.1 hb).1
    split at h
    · cases h
      exact Nat.le_of_succ_le (le_of_closingQuote? hlast)
    split at h
    · cases hline : lineEnd bytes i with
      | error fault =>
        rw [hline] at h
        cases h
      | ok n =>
        rw [hline] at h
        cases h
        cases hlast
        exact le_of_lineEnd hi hline
    split at h
    · cases hblock : blockEnd? bytes i with
      | error fault =>
        rw [hblock] at h
        cases h
      | ok n =>
        rw [hblock] at h
        cases h
        cases hlast
        exact le_of_blockEnd? hblock
    · cases h
      cases hlast

/-! ### The bracket that closes -/

/-- The offset of the bracket that closes the outermost of `depth` brackets, searched for from an
offset on. -/
def findClosingFrom (bytes : List UInt8) (depth i : Nat) : Except ScanFault (Option Nat) :=
  if i < bytes.length then
    match found : itemAt bytes i with
    | .error fault => .error fault
    | .ok (.byte c) =>
      if isOpening c then findClosingFrom bytes (depth + 1) (i + 1)
      else if isClosing c then
        match depth with
        | 0 => .ok none
        | 1 => .ok (some i)
        | depth + 2 => findClosingFrom bytes (depth + 1) (i + 1)
      else findClosingFrom bytes depth (i + 1)
    | .ok (.literal none) => .ok none
    | .ok (.literal (some last)) => findClosingFrom bytes depth (last + 1)
    | .ok (.comment none) => .ok none
    | .ok (.comment (some last)) => findClosingFrom bytes depth (last + 1)
  else .ok none
termination_by bytes.length - i
decreasing_by
  all_goals try omega
  all_goals
    have := le_of_itemAt found rfl
    omega

/-- The offset of the bracket that closes the one at an offset. -/
def findClosing (text : List Char) (opening : Nat) : Except ScanFault (Option Nat) :=
  findClosingFrom (utf8 text) 0 opening

/-! ### Entries -/

/-- The place of the last line feed of a text. -/
def lastNewline? : List Char → Option Nat
  | [] => none
  | c :: rest =>
    match lastNewline? rest with
    | some n => some (c.utf8Size + n)
    | none => if c = '\n' then some 0 else none

/-- The position of an offset. -/
def lineColumn (text : List Char) (offset : Nat) : Except ScanFault Position := do
  let before ← slice text 0 offset
  let start := match lastNewline? before with
    | some n => n + 1
    | none => 0
  let line ← slice before start (byteSize before)
  return ⟨before.count '\n' + 1, line.length + 1⟩

/-- Whether a scanner may fall back on something where the text is not closed. -/
inductive Fallbacks where
  /-- It takes what there is, up to the end of the text. -/
  | taken
  /-- It stops with a fault. -/
  | refused
  deriving DecidableEq, Repr

/-- A scanner that need not fall back goes on. -/
def Fallbacks.check (fallbacks : Fallbacks) (fault : ScanFault) (closed : Bool) :
    Except ScanFault Unit :=
  match fallbacks, closed with
  | .refused, false => .error fault
  | _, _ => .ok ()

/-- What a scanner knows of the entries that it reads. -/
structure SplitState where
  /-- The text of the entry so far, up to the last comment. -/
  current : List Char
  /-- Where the entry starts. -/
  first : Option Nat
  /-- How many brackets are open. -/
  depth : Nat
  /-- The offset behind the last comment or comma. -/
  start : Nat
  /-- The entries that were read. -/
  entries : List Entry
  deriving DecidableEq, Repr

/-- The state behind the end of an entry; a blank one is none. -/
def SplitState.flush (s : SplitState) (source : List Char) : Except ScanFault SplitState :=
  match trim s.current, s.first with
  | c :: text, some first => do
    let position ← lineColumn source first
    return { s with
      current := []
      first := none
      entries := s.entries ++ [⟨c :: text, position⟩] }
  | _, _ => return { s with current := [], first := none }

/-- The entries up to the offset `stop`, read from an offset on. -/
def splitFrom (fallbacks : Fallbacks) (source : List Char) (stop : Nat) (s : SplitState)
    (i : Nat) : Except ScanFault (List Entry) :=
  if i < stop then
    match found : itemAt (utf8 source) i with
    | .error fault => .error fault
    | .ok (.comment last?) => do
      fallbacks.check .openComment (last?.any (· < stop))
      let piece ← slice source s.start i
      let next := min (last?.getD stop + 1) stop
      splitFrom fallbacks source stop
        { s with current := s.current ++ (piece ++ [' ']), start := next } next
    | .ok (.literal last?) => do
      fallbacks.check .openLiteral (last?.any (· < stop))
      splitFrom fallbacks source stop { s with first := s.first.or (some i) }
        (min (last?.getD stop) stop + 1)
    | .ok (.byte c) =>
      let s := { s with
        first := if isAsciiBlank c || c == ',' then s.first else s.first.or (some i) }
      if isOpening c then
        splitFrom fallbacks source stop { s with depth := s.depth + 1 } (i + 1)
      else if isClosing c then do
        fallbacks.check .unopened (0 < s.depth)
        splitFrom fallbacks source stop { s with depth := s.depth - 1 } (i + 1)
      else if c = ',' ∧ s.depth = 0 then do
        let piece ← slice source s.start i
        let s ← { s with current := s.current ++ piece }.flush source
        splitFrom fallbacks source stop { s with start := i + 1 } (i + 1)
      else splitFrom fallbacks source stop s (i + 1)
  else do
    let piece ← slice source s.start (max stop s.start)
    let s ← { s with current := s.current ++ piece }.flush source
    return s.entries
termination_by stop - i
decreasing_by
  · have hlast : i ≤ last?.getD stop := by
      cases last? with
      | none => exact Nat.le_of_lt ‹i < stop›
      | some last => exact le_of_itemAt found rfl
    omega
  · have hlast : i ≤ last?.getD stop := by
      cases last? with
      | none => exact Nat.le_of_lt ‹i < stop›
      | some last => exact le_of_itemAt found rfl
    omega
  all_goals omega

/-- The entries between two offsets. -/
def splitEntries (fallbacks : Fallbacks) (source : List Char) (start stop : Nat) :
    Except ScanFault (List Entry) :=
  splitFrom fallbacks source stop ⟨[], none, 0, start, []⟩ start

/-! ### Columns and tables -/

/-- The column that an entry spells. -/
def scanColumn (param text : List Char) : Except ScanFault (Option Column) :=
  match columnHead? text with
  | none => return none
  | some head =>
    if head.param ≠ param then return none
    else do
      match ← findClosing text (byteSize text - byteSize head.rest - 1) with
      | none => return none
      | some closing =>
        let modifiers ← slice text (closing + 1) (byteSize text)
        return some (columnWith head.name head.builder modifiers)

/-- A reading of a text by a scanner. -/
abbrev Scan := ExceptT Unread (Except ScanFault)

/-- The columns among the entries of an object, and the entries that are left out. -/
def Match.scanEntries (mode : Mode) (m : Match) : List Entry → Scan (List Column × List Unread)
  | [] => return ([], [])
  | e :: rest => do
    match ← (scanColumn m.header.param e.text : Except ScanFault (Option Column)) with
    | some column =>
      let (columns, skipped) ← scanEntries mode m rest
      return (column :: columns, skipped)
    | none =>
      ExceptT.mk (return mode.leaveOut (m.unrecognised e))
      let (columns, skipped) ← scanEntries mode m rest
      return (columns, m.unrecognised e :: skipped)

/-- The tables of a row of headers, of which those in front of the offset `resume` stand inside the
object of a table read before. -/
def scanTablesFrom (fallbacks : Fallbacks) (mode : Mode) (source : List Char) (resume : Nat) :
    List Match → Scan DeclaredTables
  | [] => return ⟨[], []⟩
  | m :: rest => do
    let start := byteSize (source.take m.start)
    let opening := start + byteSize m.text - 1
    if start < resume then scanTablesFrom fallbacks mode source resume rest
    else
      match ← (findClosing source opening : Except ScanFault (Option Nat)) with
      | none =>
        let position ← (lineColumn source start : Except ScanFault Position)
        let unread := { m.unterminated with position := position }
        ExceptT.mk (return mode.leaveOut unread)
        let declared ← scanTablesFrom fallbacks mode source resume rest
        return { declared with skipped := unread :: declared.skipped }
      | some closing =>
        let es ← (splitEntries fallbacks source (opening + 1) closing :
          Except ScanFault (List Entry))
        let (columns, skipped) ← m.scanEntries mode es
        let declared ← scanTablesFrom fallbacks mode source closing rest
        return ⟨m.tableOf columns :: declared.tables, skipped ++ declared.skipped⟩

/-- The tables of a source text. -/
def scanTables (fallbacks : Fallbacks) (mode : Mode) (source : String) :
    Except ScanFault (Except Unread DeclaredTables) :=
  (scanTablesFrom fallbacks mode source.toList 0 (headerMatches source.toList)).run

end SchemaForge.Declaration
