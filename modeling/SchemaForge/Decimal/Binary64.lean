/-!
# Shortest decimals

A decimal number is read as the nearest binary number with 53 bits, and written as the decimal
with the fewest digits that is read as the same binary number.  All of it is exact arithmetic on
natural numbers.

## Main definitions

* `Decimal` — a decimal number.
* `Binary64` — a finite binary number, or an infinity.
* `Decimal.toBinary64` — the nearest binary number.
* `Binary64.shortest` — the fewest digits that are read back.
* `Binary64.text` — those digits, written without an exponent.
-/

namespace SchemaForge

/-- The number `digits * 10 ^ exponent`. -/
structure Decimal where
  /-- The digits as a whole number. -/
  digits : Nat
  /-- The power of ten. -/
  exponent : Int
  deriving DecidableEq, Repr, Inhabited

/-- A binary number without a sign. -/
inductive Binary64 where
  /-- The number `mantissa * 2 ^ exponent`. -/
  | finite (mantissa : Nat) (exponent : Int)
  /-- Greater than all finite ones. -/
  | infinity
  deriving DecidableEq, Repr, Inhabited

namespace Decimal

/-- A decimal number as a fraction of whole numbers. -/
def fraction (d : Decimal) : Nat × Nat :=
  if d.exponent < 0 then (d.digits, Nat.pow 10 d.exponent.natAbs)
  else (d.digits * Nat.pow 10 d.exponent.natAbs, 1)

/-- A quotient rounded to the nearest whole number, a half to the even one. -/
def roundDiv (num den : Nat) : Nat :=
  let quotient := num / den
  let twice := 2 * (num % den)
  if twice < den then quotient
  else if den < twice then quotient + 1
  else quotient + quotient % 2

/-- A fraction times a power of two, as a fraction. -/
def scale (f : Nat × Nat) (power : Int) : Nat × Nat :=
  if power < 0 then (f.1, f.2 * Nat.pow 2 power.natAbs)
  else (f.1 * Nat.pow 2 power.natAbs, f.2)

/-- The nearest binary number of a positive fraction. -/
def nearest (f : Nat × Nat) : Binary64 :=
  -- the leading bit of the fraction has this weight, or one less
  let weight : Int := (f.1.log2 : Int) - f.2.log2
  let leading : Int :=
    let scaled := scale f (-weight)
    if scaled.1 < scaled.2 then weight - 1 else weight
  let exponent := max (leading - 52) (-1074)
  let scaled := scale f (-exponent)
  let mantissa := roundDiv scaled.1 scaled.2
  let (mantissa, exponent) :=
    if mantissa = Nat.pow 2 53 then (Nat.pow 2 52, exponent + 1) else (mantissa, exponent)
  if 971 < exponent then .infinity else .finite mantissa exponent

/-- The nearest binary number.  Numbers far outside the range are told by their length. -/
def toBinary64 (d : Decimal) : Binary64 :=
  if d.digits = 0 then .finite 0 0
  else
    let magnitude : Int := ((Nat.toDigits 10 d.digits).length : Int) + d.exponent
    if 400 < magnitude then .infinity
    else if magnitude < -400 then .finite 0 0
    else nearest d.fraction

/-- A decimal number without an exponent: its whole part, and a point only before a fraction. -/
def text (d : Decimal) : String :=
  let digits := Nat.toDigits 10 d.digits
  if 0 ≤ d.exponent then
    if d.digits = 0 then "0" else String.ofList (digits ++ List.replicate d.exponent.natAbs '0')
  else
    let places := d.exponent.natAbs
    let padded := List.replicate (places + 1 - digits.length) '0' ++ digits
    String.ofList (padded.take (padded.length - places) ++
      '.' :: padded.drop (padded.length - places))

/-- The number with no zero at the end of its digits. -/
def trimZeros (d : Decimal) : Nat → Decimal
  | 0 => d
  | steps + 1 =>
    if d.digits ≠ 0 ∧ d.digits % 10 = 0 then trimZeros ⟨d.digits / 10, d.exponent + 1⟩ steps
    else d

end Decimal

namespace Binary64

/-- A finite binary number as a fraction of whole numbers. -/
def fraction (mantissa : Nat) (exponent : Int) : Nat × Nat :=
  Decimal.scale (mantissa, 1) exponent

/-- The power of ten of the last of `count` digits of a fraction whose first digit has the weight
`10 ^ weight`. -/
def lastPlace (weight : Int) (count : Nat) : Int :=
  weight - count + 1

/-- The two decimals with a last digit of weight `10 ^ place` around a fraction, the nearer one
first; of two equally near the even one. -/
def neighbours (f : Nat × Nat) (place : Int) : List Decimal :=
  let (num, den) :=
    if place < 0 then (f.1 * Nat.pow 10 place.natAbs, f.2)
    else (f.1, f.2 * Nat.pow 10 place.natAbs)
  let low := num / den
  let near := Decimal.roundDiv num den
  [⟨near, place⟩, ⟨if near = low then low + 1 else low, place⟩]

/-- The first decimal around a fraction, with at most `count` digits more than tried before, that
is read as `b`. -/
def search (b : Binary64) (f : Nat × Nat) (weight : Int) (tried : Nat) : Nat → Option Decimal
  | 0 => none
  | count + 1 =>
    match (neighbours f (lastPlace weight (tried + 1))).find? (·.toBinary64 == b) with
    | some d => some d
    | none => search b f weight (tried + 1) count

/-- The decimal with the fewest digits that is read as a binary number. -/
def shortest (mantissa : Nat) (exponent : Int) : Decimal :=
  if mantissa = 0 then ⟨0, 0⟩
  else
    let f := fraction mantissa exponent
    -- the first digit of the fraction has this weight, or one more
    let weight : Int :=
      ((Nat.toDigits 10 f.1).length : Int) - (Nat.toDigits 10 f.2).length
    match search (.finite mantissa exponent) f weight 0 19 with
    | some d => d.trimZeros 400
    | none => ⟨mantissa, 0⟩

/-- A binary number as text. -/
def text : Binary64 → String
  | finite mantissa exponent => (shortest mantissa exponent).text
  | infinity => "inf"

end Binary64

end SchemaForge
