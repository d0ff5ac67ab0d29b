import SchemaForge.Text.Search

/-!
# What a settings file holds between its values

Spaces, tabs, comments and line ends.

## Main definitions

* `skipSpaces`, `skipComment` — a text without what stands at its head on one line.
* `takeNewline` — the end of a line.
* `skipBetween` — a text without all that may stand between the values of a list.
-/

namespace SchemaForge.Toml

open Text (Take dropWhile_length_le)

/-- A text without the spaces and tabs at its head. -/
def skipSpaces (text : List Char) : List Char :=
  text.dropWhile fun c => c == ' ' || c == '\t'

theorem skipSpaces_length_le (text : List Char) : (skipSpaces text).length ≤ text.length :=
  dropWhile_length_le _ text

/-- Take a line feed, alone or behind a carriage return. -/
def takeNewline (text : List Char) : Take Unit text :=
  match text with
  | '\n' :: rest => some (.ofHead () rest)
  | '\r' :: '\n' :: rest => some ⟨(), rest, by simp only [List.length_cons]; omega⟩
  | _ => none

/-- Characters that a comment may hold. -/
def isCommentChar (c : Char) : Bool :=
  c == '\t' || (0x20 ≤ c.toNat && c.toNat != 0x7F)

/-- A text without the comment at its head, if there is one. -/
def skipComment : List Char → List Char
  | '#' :: rest => rest.dropWhile isCommentChar
  | text => text

theorem skipComment_length_le (text : List Char) : (skipComment text).length ≤ text.length := by
  unfold skipComment
  split
  · exact Nat.le_succ_of_le (dropWhile_length_le _ _)
  · exact Nat.le_refl _

/-- A text without the spaces, comments and line ends at its head: all that may stand between the
values of a list. -/
def skipBetween (text : List Char) : List Char :=
  let trimmed := skipComment (skipSpaces text)
  match takeNewline trimmed with
  | some ⟨_, rest, h⟩ =>
    have : rest.length < text.length :=
      Nat.lt_of_lt_of_le h
        (Nat.le_trans (skipComment_length_le _) (skipSpaces_length_le text))
    skipBetween rest
  | none => trimmed
termination_by text.length

theorem skipBetween_length_le (text : List Char) :
    (skipBetween text).length ≤ text.length := by
  fun_induction skipBetween text with
  | case1 text trimmed _ rest _ _ _ ih => omega
  | case2 text trimmed _ =>
    exact Nat.le_trans (skipComment_length_le _) (skipSpaces_length_le text)

end SchemaForge.Toml
