/-!
# Searching a text, and taking pieces off it

Readers take a piece off the front of a text.  What is left is shorter, which is why reading ends.

## Main definitions

* `after?` — what follows a given lead at the head of a text.
* `occursIn` — whether a text occurs in another.
* `firstSome?` — what is found at the first place of a text where anything is.
* `Taken`, `Take` — a piece with what is left, and the outcome of a reader.
* `takeChar` — one given character.
* `takeRun` — characters of a class.
-/

namespace SchemaForge.Text

/-! ### Searching -/

/-- What follows `lead` at the head of a text. -/
def after? : List Char → List Char → Option (List Char)
  | [], text => some text
  | _ :: _, [] => none
  | l :: lead, c :: text => if l = c then after? lead text else none

@[simp] theorem after?_nil (text : List Char) : after? [] text = some text := by
  cases text <;> rfl

theorem append_of_after? {lead text rest : List Char} (h : after? lead text = some rest) :
    lead ++ rest = text := by
  fun_induction after? lead text with
  | case1 => simpa using h.symm
  | case2 => cases h
  | case3 => simp_all
  | case4 => cases h

theorem after?_append (lead rest : List Char) : after? lead (lead ++ rest) = some rest := by
  induction lead with
  | nil => simp
  | cons c lead ih => simp [after?, ih]

/-- Whether `part` occurs in a text. -/
def occursIn (part : List Char) : List Char → Bool
  | [] => part.isEmpty
  | c :: text => (after? part (c :: text)).isSome || occursIn part text

/-- What `find` finds at the first place of a text where it finds anything. -/
def firstSome? {α : Type} (find : List Char → Option α) : List Char → Option α
  | [] => find []
  | c :: text => (find (c :: text)).or (firstSome? find text)

/-! ### Taking -/

/-- A piece taken off a text, and the fewer than `bound` characters that are left. -/
structure Taken (α : Type) (bound : Nat) where
  /-- The piece. -/
  value : α
  /-- What is left. -/
  rest : List Char
  /-- Something was taken. -/
  shorter : rest.length < bound

/-- A piece of one character, which `rest` follows. -/
def Taken.ofHead {α : Type} (value : α) (rest : List Char) : Taken α (rest.length + 1) :=
  ⟨value, rest, Nat.lt_succ_self _⟩

/-- A piece that was taken further on, with characters in front of it. -/
def Taken.prepend {n m : Nat} (cs : List Char) (h : n ≤ m) (t : Taken (List Char) n) :
    Taken (List Char) m :=
  ⟨cs ++ t.value, t.rest, Nat.lt_of_lt_of_le t.shorter h⟩

/-- A piece that was taken further on. -/
def Taken.weaken {α : Type} {n m : Nat} (h : n ≤ m) (t : Taken α n) : Taken α m :=
  ⟨t.value, t.rest, Nat.lt_of_lt_of_le t.shorter h⟩

/-- A piece that was taken one character further on. -/
def Taken.behindOne {α : Type} {n : Nat} (t : Taken α n) : Taken α (n + 1) :=
  t.weaken (Nat.le_succ n)

/-- The outcome of a reader that takes something off a text, if it can. -/
abbrev Take (α : Type) (text : List Char) : Type :=
  Option (Taken α text.length)

/-- The outcome of a reader that may take nothing. -/
abbrev TakeSome (α : Type) (text : List Char) : Type :=
  Option (Taken α (text.length + 1))

/-- Take one given character. -/
def takeChar (c : Char) (text : List Char) : Take Unit text :=
  match text with
  | d :: rest => if c = d then some (.ofHead () rest) else none
  | [] => none

theorem dropWhile_length_le (p : Char → Bool) (text : List Char) :
    (text.dropWhile p).length ≤ text.length :=
  (List.dropWhile_sublist _).length_le

/-- Take the characters of a class, of which there must be one. -/
def takeRun (belongs : Char → Bool) (text : List Char) : Take (List Char) text :=
  match text with
  | c :: rest =>
    if belongs c then
      some ⟨c :: rest.takeWhile belongs, rest.dropWhile belongs,
        Nat.lt_succ_of_le (dropWhile_length_le belongs rest)⟩
    else none
  | [] => none

end SchemaForge.Text
