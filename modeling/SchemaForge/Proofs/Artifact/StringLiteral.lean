import Mathlib
import SchemaForge.Text.Escape

/-!
# String literals of generated modules

A generated module is program text, and a string literal in it is what the language of the module
takes for one: characters between single quotes, some of them written as escapes.  Modules are
strict code, so no escape is octal.  A literal stands for a row of code units of 16 bits.

A text that is put between single quotes as it is stands for itself as long as nothing in it means
something inside of a literal: single quotes and line ends would end it, and what stands behind a
backslash is worth fewer units than its characters have.

## Main definitions

* `units` — the code units of a text.
* `IsEscape`, `IsInside` — what may stand behind a backslash, and between the quotes.
* `Starts` — a text that starts with a literal.
* `IsPlain` — a text of characters that mean themselves inside of a literal.

## Main results

* `IsInside.length_lt` — backslashes cost units.
* `isInside_units_iff` — the texts that stand for themselves.
* `starts_units_iff` — **a text between quotes is a literal of that text when it is plain, and only
  then.**
-/

namespace SchemaForge.StringLiteral

/-! ### Code units -/

/-- The code units of a code point. -/
def codeUnits (n : Nat) : List Nat :=
  if n < 0x10000 then [n] else [0xD800 + (n - 0x10000) / 0x400, 0xDC00 + (n - 0x10000) % 0x400]

/-- The code units of a text. -/
def units (text : List Char) : List Nat :=
  text.flatMap fun c => codeUnits c.toNat

/-! ### Literals -/

/-- The line ends that a literal may not hold. -/
def lineEnds : List Char :=
  ['\n', '\r']

/-- The line ends that a literal may hold, though they end lines elsewhere. -/
def separators : List Char :=
  ['\u2028', '\u2029']

/-- The characters that stand for a code unit behind a backslash, and that unit. -/
def singleEscapes : List (Char × Nat) :=
  [('\'', 0x27), ('"', 0x22), ('\\', 0x5C), ('b', 0x8), ('f', 0xC), ('n', 0xA), ('r', 0xD),
    ('t', 0x9), ('v', 0xB)]

/-- The number that hexadecimal digits are, if all of them are such. -/
def hexNumber? (digits : List Char) : Option Nat :=
  digits.foldlM (fun n c => (Text.hexDigit? c).map (16 * n + ·)) 0

/-- What may stand behind a backslash, and the units that both stand for together. -/
inductive IsEscape : List Char → List Nat → Prop
  /-- One character for one unit. -/
  | single {c : Char} {n : Nat} (h : (c, n) ∈ singleEscapes) : IsEscape [c] [n]
  /-- A character for itself, since it has no meaning of its own. -/
  | self {c : Char} (hsingle : c ∉ singleEscapes.map Prod.fst) (hdigit : c.isDigit = false)
    (hnumber : c ∉ ['x', 'u']) (hline : c ∉ lineEnds ++ separators) :
    IsEscape [c] (codeUnits c.toNat)
  /-- A unit by two digits. -/
  | byte {digits : List Char} {n : Nat} (hlength : digits.length = 2)
    (hdigits : hexNumber? digits = some n) : IsEscape ('x' :: digits) [n]
  /-- A unit by four digits. -/
  | unit {digits : List Char} {n : Nat} (hlength : digits.length = 4)
    (hdigits : hexNumber? digits = some n) : IsEscape ('u' :: digits) [n]
  /-- A code point by its number. -/
  | codePoint {digits : List Char} {n : Nat} (hne : digits ≠ [])
    (hdigits : hexNumber? digits = some n) (hrange : n ≤ 0x10FFFF) :
    IsEscape ('u' :: '\x7b' :: (digits ++ ['\x7d'])) (codeUnits n)
  /-- A line end, for nothing. -/
  | lineEnd {ending : List Char}
    (h : ending ∈ ['\r', '\n'] :: (lineEnds ++ separators).map ([·])) : IsEscape ending []

/-- The characters that mean something inside of a literal: the quote that ends it, the backslash
of an escape, and line ends. -/
def special : List Char :=
  '\'' :: '\\' :: lineEnds

/-- What may stand between the quotes of a literal, and the units it stands for. -/
inductive IsInside : List Char → List Nat → Prop
  /-- Nothing. -/
  | nil : IsInside [] []
  /-- A character that means itself. -/
  | char {c : Char} {text : List Char} {value : List Nat} (hc : c ∉ special)
    (h : IsInside text value) : IsInside (c :: text) (codeUnits c.toNat ++ value)
  /-- An escape. -/
  | escape {escaped text : List Char} {value value' : List Nat} (he : IsEscape escaped value)
    (h : IsInside text value') : IsInside ('\\' :: (escaped ++ text)) (value ++ value')
  /-- The unit zero, which no digit may follow. -/
  | zero {text : List Char} {value : List Nat} (hnext : ∀ c ∈ text.head?, c.isDigit = false)
    (h : IsInside text value) : IsInside ('\\' :: '0' :: text) (0 :: value)

/-- A text starts with a literal of the given units, and `rest` follows. -/
def Starts (value : List Nat) (text rest : List Char) : Prop :=
  ∃ inside, text = '\'' :: (inside ++ '\'' :: rest) ∧ IsInside inside value

/-- Every character means itself inside of a literal. -/
def IsPlain (text : List Char) : Prop :=
  ∀ c ∈ text, c ∉ special

instance (text : List Char) : Decidable (IsPlain text) :=
  List.decidableBAll (· ∉ special) text

/-! ### Lengths -/

section

variable {text : List Char} {value : List Nat}

theorem length_codeUnits (n : Nat) : 1 ≤ (codeUnits n).length ∧ (codeUnits n).length ≤ 2 := by
  rw [codeUnits]
  split <;> simp

@[simp] theorem units_nil : units [] = [] := rfl

@[simp] theorem units_cons (c : Char) (text : List Char) :
    units (c :: text) = codeUnits c.toNat ++ units text :=
  List.flatMap_cons

@[simp] theorem units_append (text text' : List Char) :
    units (text ++ text') = units text ++ units text' :=
  List.flatMap_append

theorem length_le_length_units (text : List Char) : text.length ≤ (units text).length := by
  induction text with
  | nil => exact Nat.le_refl 0
  | cons c text ih =>
    have hc := (length_codeUnits c.toNat).1
    rw [units_cons, List.length_append, List.length_cons]
    omega

/-- An escape stands for no more units than its characters have, the backslash apart. -/
theorem IsEscape.length_le (h : IsEscape text value) : value.length ≤ (units text).length := by
  cases h with
  | self => simp
  | @single c n h => simpa using (length_codeUnits c.toNat).1
  | byte => simpa using (length_codeUnits _).1.trans (Nat.le_add_right _ _)
  | unit => simpa using (length_codeUnits _).1.trans (Nat.le_add_right _ _)
  | @codePoint digits n hne hdigits hrange =>
    have hvalue := (length_codeUnits n).2
    have htext := length_le_length_units ('u' :: '\x7b' :: (digits ++ ['\x7d']))
    simp only [List.length_cons] at htext
    omega
  | lineEnd h => exact Nat.zero_le _

/-- **Backslashes cost units**: what stands between the quotes of a literal stands for no more units
than its characters have, and for fewer if a backslash is among them. -/
theorem IsInside.length_lt (h : IsInside text value) :
    value.length ≤ (units text).length ∧ ('\\' ∈ text → value.length < (units text).length) := by
  induction h with
  | nil => simp
  | @char c text value hc _ ih =>
    rw [units_cons, List.length_append, List.length_append]
    refine ⟨by omega, fun hmem => ?_⟩
    rcases List.mem_cons.1 hmem with rfl | hmem
    · exact absurd (by decide) hc
    · have := ih.2 hmem
      omega
  | @escape escaped text value value' he _ ih =>
    have hle := he.length_le
    have hbackslash := (length_codeUnits '\\'.toNat).1
    rw [units_cons, units_append, List.length_append, List.length_append, List.length_append]
    constructor <;> omega
  | @zero text value hnext _ ih =>
    have hbackslash := (length_codeUnits '\\'.toNat).1
    have hzero := (length_codeUnits '0'.toNat).1
    rw [units_cons, units_cons, List.length_append, List.length_append, List.length_cons]
    constructor <;> omega

/-! ### Texts that stand for themselves -/

theorem IsInside.isPlain (h : IsInside text value) (hbackslash : '\\' ∉ text) : IsPlain text := by
  induction h with
  | nil => simp [IsPlain]
  | char hc _ ih =>
    rw [List.mem_cons, not_or] at hbackslash
    exact List.forall_mem_cons.2 ⟨hc, ih hbackslash.2⟩
  | escape => exact absurd (List.mem_cons_self ..) hbackslash
  | zero => exact absurd (List.mem_cons_self ..) hbackslash

theorem IsPlain.isInside (h : IsPlain text) : IsInside text (units text) := by
  induction text with
  | nil => exact .nil
  | cons c text ih =>
    obtain ⟨hc, htext⟩ := List.forall_mem_cons.1 h
    rw [units_cons]
    exact .char hc (ih htext)

/-- **The texts that stand for themselves are the plain ones.** -/
theorem isInside_units_iff : IsInside text (units text) ↔ IsPlain text := by
  refine ⟨fun h => h.isPlain fun hmem => ?_, IsPlain.isInside⟩
  have hlt := h.length_lt.2 hmem
  omega

/-- **A text between quotes is a literal of that text when it is plain, and only then.** -/
theorem starts_units_iff {rest : List Char} :
    Starts (units text) ('\'' :: (text ++ '\'' :: rest)) rest ↔ IsPlain text := by
  rw [← isInside_units_iff]
  constructor
  · rintro ⟨inside, htext, hinside⟩
    obtain rfl := List.append_cancel_right (List.cons.inj htext).2
    exact hinside
  · intro hinside
    exact ⟨text, rfl, hinside⟩

end

end SchemaForge.StringLiteral
