import SchemaForge.Text.Blank

/-!
# Regular expressions: flags and nesting

What the parts of a regular expression have in common: the flags that they stand under, and how
deep they nest.

## Main definitions

* `Flags` — the flags that bear on whether an expression is well formed.
* `Flags.skip` — a text from where its next part starts.
* `sideBySide` — how deep a row of parts nests.
-/

namespace SchemaForge.Regex

/-- The flags that bear on whether an expression is well formed. -/
structure Flags where
  /-- Characters are those of Unicode; otherwise they are bytes. -/
  unicode : Bool := true
  /-- Blanks and comments between the parts of an expression do not count. -/
  spaced : Bool := false
  deriving DecidableEq, Repr, Inhabited

/-! ### Blanks and comments -/

/-- A text without the blanks and comments at its head.  A comment lasts until its line ends. -/
def skipSpacing (inComment : Bool) : List Char → List Char
  | [] => []
  | c :: rest =>
    if inComment then skipSpacing (c != '\n') rest
    else if c == '#' then skipSpacing true rest
    else if Text.isBlank c then skipSpacing false rest
    else c :: rest

theorem skipSpacing_length_le (inComment : Bool) (text : List Char) :
    (skipSpacing inComment text).length ≤ text.length := by
  fun_induction skipSpacing inComment text with
  | case1 => exact Nat.le_refl _
  | case2 c rest ih => exact Nat.le_succ_of_le ih
  | case3 inComment c rest _ _ ih => exact Nat.le_succ_of_le ih
  | case4 inComment c rest _ _ _ ih => exact Nat.le_succ_of_le ih
  | case5 => exact Nat.le_refl _

/-- A text from where its next part starts. -/
def Flags.skip (f : Flags) (text : List Char) : List Char :=
  if f.spaced then skipSpacing false text else text

theorem Flags.skip_length_le (f : Flags) (text : List Char) :
    (f.skip text).length ≤ text.length := by
  unfold Flags.skip
  split
  · exact skipSpacing_length_le false text
  · exact Nat.le_refl _

theorem Flags.length_le_of_skip {f : Flags} {text rest : List Char} (h : f.skip text = rest) :
    rest.length ≤ text.length :=
  h ▸ f.skip_length_le text

theorem Flags.length_lt_of_skip {f : Flags} {text rest : List Char} {c : Char}
    (h : f.skip text = c :: rest) : rest.length < text.length :=
  f.length_le_of_skip h

/-- The character that a look ahead finds.  It goes past blanks and past one number sign, but not
past what a comment says. -/
def Flags.peek (f : Flags) (text : List Char) : Option Char :=
  if f.spaced then
    match Text.trimStart text with
    | '#' :: rest => (Text.trimStart rest).head?
    | trimmed => trimmed.head?
  else text.head?

/-! ### Nesting -/

/-- How deep an expression may nest. -/
def nestingLimit : Nat := 250

/-- How deep a row of parts nests: one level deeper than the deepest of them, if they are not
one or none. -/
def sideBySide : List Nat → Nat
  | [] => 0
  | [depth] => depth
  | depths => depths.foldl max 0 + 1

@[simp] theorem sideBySide_nil : sideBySide [] = 0 := rfl

@[simp] theorem sideBySide_singleton (depth : Nat) : sideBySide [depth] = depth := rfl

end SchemaForge.Regex
