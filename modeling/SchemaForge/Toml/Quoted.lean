import SchemaForge.Text.Escape
import SchemaForge.Toml.Blank

/-!
# Quoted texts of a settings file

A text stands in double quotes, with escapes, or in single quotes, as it is; three quotes on
either side let it run over several lines.

## Main definitions

* `takeQuoted` — a text in quotes of any of the four forms.
* `takeQuotedKey` — a text in quotes on one line, as a key may be.
-/

namespace SchemaForge.Toml

open Text (Taken Take hexChar?)

/-- Characters that stand for themselves in quoted texts. -/
def isPlainChar (c : Char) : Bool :=
  c == '\t' || (0x20 ≤ c.toNat && c.toNat != 0x7F)

/-- The character that an escape of one character stands for. -/
def shortEscape? : Char → Option Char
  | 'b' => some '\x08'
  | 't' => some '\t'
  | 'n' => some '\n'
  | 'f' => some '\x0c'
  | 'r' => some '\r'
  | '"' => some '"'
  | '\\' => some '\\'
  | _ => none

/-- Take the character that an escape stands for, behind its backslash. -/
def takeEscape (text : List Char) : Take Char text :=
  match text with
  | 'u' :: rest => hex rest 4
  | 'U' :: rest => hex rest 8
  | c :: rest => (shortEscape? c).map fun e => .ofHead e rest
  | [] => none
where
  /-- Take a character by its number of some digits. -/
  hex (rest : List Char) (count : Nat) : Option (Taken Char (rest.length + 1)) :=
    if count ≤ rest.length then
      (hexChar? (rest.take count)).map fun c =>
        ⟨c, rest.drop count, by simp only [List.length_drop]; omega⟩
    else none

/-- Take the inside of double quotes and the closing one. -/
def takeBasic (text : List Char) : Take (List Char) text :=
  match text with
  | '"' :: rest => some ⟨[], rest, by simp⟩
  | '\\' :: rest => do
    let ⟨c, after, _⟩ ← takeEscape rest
    let t ← takeBasic after
    return t.prepend [c] (by simp only [List.length_cons]; omega)
  | c :: rest =>
    if isPlainChar c then do
      let t ← takeBasic rest
      return t.prepend [c] (by simp)
    else none
  | [] => none
termination_by text.length
decreasing_by all_goals simp only [List.length_cons]; omega

/-- Take the inside of single quotes and the closing one. -/
def takeLiteral (text : List Char) : Take (List Char) text :=
  match text with
  | '\'' :: rest => some ⟨[], rest, by simp⟩
  | c :: rest =>
    if isPlainChar c then do
      let t ← takeLiteral rest
      return t.prepend [c] (by simp)
    else none
  | [] => none

/-- Take three quotes that close a text of several lines.  One or two more in front of them
belong to the text. -/
def takeClosing (q : Char) (text : List Char) : Take (List Char) text :=
  match text with
  | c₁ :: c₂ :: c₃ :: rest =>
    if c₁ == q && c₂ == q && c₃ == q then
      let more := (rest.take 2).takeWhile (· == q)
      some ⟨more, rest.drop more.length, by
        simp only [List.length_drop, List.length_cons]; omega⟩
    else none
  | _ => none

/-- A text without the blanks and line ends at its head. -/
def skipLineBlanks (text : List Char) : List Char :=
  match text with
  | '\r' :: '\n' :: rest => skipLineBlanks rest
  | c :: rest => if c == ' ' || c == '\t' || c == '\n' then skipLineBlanks rest else c :: rest
  | [] => []

theorem skipLineBlanks_length_le (text : List Char) :
    (skipLineBlanks text).length ≤ text.length := by
  fun_induction skipLineBlanks text with
  | case1 rest ih => simp only [List.length_cons]; omega
  | case2 c rest _ _ ih => simp only [List.length_cons]; omega
  | case3 => exact Nat.le_refl _
  | case4 => exact Nat.le_refl _

/-- Take the inside of a text of several lines in double quotes, and the closing ones.  A
backslash at the end of a line joins the lines. -/
def takeBasicLines (text : List Char) : Take (List Char) text :=
  match takeClosing '"' text with
  | some t => some t
  | none =>
    match text with
    | '\\' :: rest =>
      match takeNewline (skipSpaces rest), skipSpaces_length_le rest with
      | some ⟨_, after, _⟩, _ => do
        have := skipLineBlanks_length_le after
        let t ← takeBasicLines (skipLineBlanks after)
        return t.prepend [] (by simp only [List.length_cons]; omega)
      | none, _ => do
        let ⟨c, after, _⟩ ← takeEscape rest
        let t ← takeBasicLines after
        return t.prepend [c] (by simp only [List.length_cons]; omega)
    | '\r' :: '\n' :: rest => do
      let t ← takeBasicLines rest
      return t.prepend ['\n'] (by simp only [List.length_cons]; omega)
    | c :: rest =>
      if isPlainChar c || c == '\n' then do
        let t ← takeBasicLines rest
        return t.prepend [c] (by simp)
      else none
    | [] => none
termination_by text.length
decreasing_by all_goals simp only [List.length_cons]; omega

/-- Take the inside of a text of several lines in single quotes, and the closing ones. -/
def takeLiteralLines (text : List Char) : Take (List Char) text :=
  match takeClosing '\'' text with
  | some t => some t
  | none =>
    match text with
    | '\r' :: '\n' :: rest => do
      let t ← takeLiteralLines rest
      return t.prepend ['\n'] (by simp only [List.length_cons]; omega)
    | c :: rest =>
      if isPlainChar c || c == '\n' then do
        let t ← takeLiteralLines rest
        return t.prepend [c] (by simp)
      else none
    | [] => none

/-- A text without the line end at its head, if there is one. -/
def skipNewline (text : List Char) : List Char :=
  match takeNewline text with
  | some t => t.rest
  | none => text

theorem skipNewline_length_le (text : List Char) : (skipNewline text).length ≤ text.length := by
  unfold skipNewline
  split
  · rename_i t _
    exact Nat.le_of_lt t.shorter
  · exact Nat.le_refl _

/-- Take a quoted text of any form. -/
def takeQuoted (text : List Char) : Take (List Char) text :=
  match text with
  | '"' :: '"' :: '"' :: rest => do
    let t ← takeBasicLines (skipNewline rest)
    return t.prepend [] (by have := skipNewline_length_le rest; simp only [List.length_cons]; omega)
  | '\'' :: '\'' :: '\'' :: rest => do
    let t ← takeLiteralLines (skipNewline rest)
    return t.prepend [] (by have := skipNewline_length_le rest; simp only [List.length_cons]; omega)
  | '"' :: rest => do
    let t ← takeBasic rest
    return t.behindOne
  | '\'' :: rest => do
    let t ← takeLiteral rest
    return t.behindOne
  | _ => none

/-- Take a quoted text on one line. -/
def takeQuotedKey (text : List Char) : Take (List Char) text :=
  match text with
  | '"' :: rest => do
    let t ← takeBasic rest
    return t.behindOne
  | '\'' :: rest => do
    let t ← takeLiteral rest
    return t.behindOne
  | _ => none

end SchemaForge.Toml
