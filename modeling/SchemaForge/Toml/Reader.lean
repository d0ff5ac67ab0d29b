import SchemaForge.Toml.Document
import SchemaForge.Toml.Quoted
import SchemaForge.Toml.Scalar

/-!
# Reading a settings file

A file is read line by line: a line holds a header, a key with its value, or nothing, and may end
in a comment.

## Main definitions

* `takeKey` — a dotted key.
* `takeValue` — a value.
* `read?` — the values of a whole file, if it is well formed.
-/

namespace SchemaForge.Toml

open Text (Take TakeSome takeChar takeRun)

/-- How deep lists and tables may nest. -/
def nestingLimit : Nat := 79

/-! ### Keys -/

/-- Characters of a key without quotes. -/
def isKeyChar (c : Char) : Bool :=
  c.isAlphanum || c == '_' || c == '-'

/-- Take one part of a key. -/
def takeKeyPart (text : List Char) : Take (List Char) text :=
  match takeQuotedKey text with
  | some t => some t
  | none => takeRun isKeyChar text

/-- Take the parts of a key with dots between them.  Spaces may stand around each part. -/
def takeKeyParts (text : List Char) : Take (List String) text := do
  have hs := skipSpaces_length_le text
  let ⟨part, after, h⟩ ← takeKeyPart (skipSpaces text)
  have ha := skipSpaces_length_le after
  match hd : skipSpaces after with
  | '.' :: rest =>
    let ⟨parts, rest', _⟩ ← takeKeyParts rest
    return ⟨String.ofList part :: parts, rest', by rw [hd] at ha; simp at ha; omega⟩
  | rest => return ⟨[String.ofList part], rest, by rw [hd] at ha; omega⟩
termination_by text.length
decreasing_by rw [hd] at ha; simp at ha; omega

/-- Take a key, whose parts may be as many as lists and tables may nest. -/
def takeKey (text : List Char) : Take (List String) text := do
  let key ← takeKeyParts text
  if key.value.length ≤ nestingLimit then return key else none

/-- The parts of a key before its last, and its last. -/
def splitLast : List String → Option (List String × String)
  | [] => none
  | [name] => some ([], name)
  | part :: rest => (splitLast rest).map fun (path, name) => (part :: path, name)

/-! ### Values -/

/-- The value of an unquoted word. -/
def Word.toValue : Word → Value
  | boolean b => .boolean b
  | integer n => .integer n
  | float text => .float text
  | time text => .time text

mutual

/-- Take a value inside fewer lists and tables than the limit, of which `depth` may still be
opened. -/
def takeValue (depth : Nat) (text : List Char) : Take Value text :=
  match text with
  | '[' :: rest =>
    match depth with
    | 0 => none
    | depth + 1 => do
      let ⟨values, rest', _⟩ ← takeItems depth rest
      return ⟨.array values, rest', by simp only [List.length_cons]; omega⟩
  | '\x7b' :: rest =>
    match depth with
    | 0 => none
    | depth + 1 => do
      have hs := skipSpaces_length_le rest
      match he : skipSpaces rest with
      | '\x7d' :: rest' =>
        return ⟨.table [], rest', by rw [he] at hs; simp at hs; simp only [List.length_cons]; omega⟩
      | _ =>
        let ⟨table, rest', _⟩ ← takePairs depth .empty rest
        return ⟨.table (tableEntries table), rest', by simp only [List.length_cons]; omega⟩
  | text =>
    match takeQuoted text with
    | some ⟨s, rest, h⟩ => some ⟨.string (String.ofList s), rest, h⟩
    | none => do
      let ⟨word, rest, h⟩ ← takeWord text
      return ⟨word.toValue, rest, h⟩
termination_by (text.length, 0)
decreasing_by all_goals simp only [Prod.lex_def, List.length_cons]; omega

/-- Take the values of a list and the bracket that closes it.  A comma may stand behind the last
value. -/
def takeItems (depth : Nat) (text : List Char) : Take (List Value) text := do
  have hs := skipBetween_length_le text
  match hn : skipBetween text with
  | ']' :: rest => return ⟨[], rest, by rw [hn] at hs; simp at hs; omega⟩
  | head =>
    let ⟨v, after, _⟩ ← takeValue depth head
    have ha := skipBetween_length_le after
    match hm : skipBetween after with
    | ',' :: rest =>
      let ⟨vs, rest', _⟩ ← takeItems depth rest
      return ⟨v :: vs, rest', by rw [hn] at hs; rw [hm] at ha; simp at ha; omega⟩
    | ']' :: rest =>
      return ⟨[v], rest, by rw [hn] at hs; rw [hm] at ha; simp at ha; omega⟩
    | _ => none
termination_by (text.length, 1)
decreasing_by
  · rw [hn] at hs; simp only [Prod.lex_def]; omega
  · rw [hn] at hs; rw [hm] at ha; simp at ha; simp only [Prod.lex_def]; omega

/-- Take the keys and values of a table on one line and the brace that closes it. -/
def takePairs (depth : Nat) (table : Table) (text : List Char) : Take Table text := do
  let ⟨key, after, _⟩ ← takeKey text
  let ⟨_, after', _⟩ ← takeChar '=' after
  have hs := skipSpaces_length_le after'
  let ⟨v, behind, _⟩ ← takeValue depth (skipSpaces after')
  let (path, name) ← splitLast key
  let table ← table.assign [] path name v
  have hb := skipSpaces_length_le behind
  match hm : skipSpaces behind with
  | ',' :: rest =>
    let ⟨table, rest', _⟩ ← takePairs depth table rest
    return ⟨table, rest', by rw [hm] at hb; simp at hb; omega⟩
  | '\x7d' :: rest => return ⟨table, rest, by rw [hm] at hb; simp at hb; omega⟩
  | _ => none
termination_by (text.length, 1)
decreasing_by
  · simp only [Prod.lex_def]; omega
  · rw [hm] at hb; simp at hb; simp only [Prod.lex_def]; omega

end

/-! ### Lines -/

/-- What the lines of a file have built. -/
structure Built where
  /-- The table of the whole file. -/
  root : Table
  /-- The path of the table that the last header opened. -/
  header : List String

/-- Take the header of a list of tables behind its opening brackets. -/
def takeListHeader (b : Built) (text : List Char) : TakeSome Built text := do
  let ⟨key, after, _⟩ ← takeKey text
  match hb : after with
  | ']' :: ']' :: rest =>
    let (path, name) ← splitLast key
    return ⟨⟨← b.root.append path name, key⟩, rest,
      by subst hb; simp only [List.length_cons] at *; omega⟩
  | _ => none

/-- Take the header of a table behind its opening bracket. -/
def takeTableHeader (b : Built) (text : List Char) : TakeSome Built text := do
  let ⟨key, after, _⟩ ← takeKey text
  match hb : after with
  | ']' :: rest =>
    let (path, name) ← splitLast key
    return ⟨⟨← b.root.openTable path name, key⟩, rest,
      by subst hb; simp only [List.length_cons] at *; omega⟩
  | _ => none

/-- Take a key with its value. -/
def takeAssignment (b : Built) (text : List Char) : TakeSome Built text := do
  let ⟨key, after, _⟩ ← takeKey text
  let ⟨_, after', _⟩ ← takeChar '=' after
  have hs := skipSpaces_length_le after'
  let ⟨v, rest, _⟩ ← takeValue nestingLimit (skipSpaces after')
  let (path, name) ← splitLast key
  return ⟨⟨← b.root.assign b.header path name v, b.header⟩, rest, by omega⟩

/-- Take what a line holds in front of its comment. -/
def takeLine (b : Built) (text : List Char) : TakeSome Built text :=
  match text with
  | '[' :: '[' :: rest => do
    let ⟨b, rest', _⟩ ← takeListHeader b rest
    return ⟨b, rest', by simp only [List.length_cons]; omega⟩
  | '[' :: rest => do
    let ⟨b, rest', _⟩ ← takeTableHeader b rest
    return ⟨b, rest', by simp only [List.length_cons]; omega⟩
  | '#' :: rest => some ⟨b, '#' :: rest, by simp⟩
  | '\n' :: rest => some ⟨b, '\n' :: rest, by simp⟩
  | '\r' :: rest => some ⟨b, '\r' :: rest, by simp⟩
  | [] => some ⟨b, [], by simp⟩
  | text => takeAssignment b text

/-- Read the lines of a file. -/
def readLines (b : Built) (text : List Char) : Option Table := do
  have := skipSpaces_length_le text
  let ⟨b, after, _⟩ ← takeLine b (skipSpaces text)
  have := skipSpaces_length_le after
  have := skipComment_length_le (skipSpaces after)
  match takeNewline (skipComment (skipSpaces after)) with
  | some ⟨_, rest, _⟩ => readLines b rest
  | none => if (skipComment (skipSpaces after)).isEmpty then return b.root else none
termination_by text.length
decreasing_by omega

/-- A text without the mark of its encoding at its head. -/
def skipMark : List Char → List Char
  | '\uFEFF' :: rest => rest
  | text => text

/-- The values of a settings file, if it is well formed. -/
def read? (text : String) : Option (List (String × Value)) :=
  (readLines ⟨.empty, []⟩ (skipMark text.toList)).map tableEntries

end SchemaForge.Toml
