import Polyglot.Number.Binary64

/-!
# Shortest decimal texts

The decimal with the fewest digits that rounds back to a finite binary64 number,
and the nearest of those to it. It is the value that the texts of numbers show,
each in its own layout.
-/

namespace Polyglot

/-- A decimal `digits · 10 ^ exponent`. -/
structure Decimal where
  digits : Nat
  exponent : Int
  deriving DecidableEq, Repr

namespace Decimal

/-- The decimal as a quotient. -/
def quotient (d : Decimal) : Nat × Nat :=
  (d.digits * Nat.pow 10 d.exponent.toNat, Nat.pow 10 (-d.exponent).toNat)

/-- The same value without zeros at the end of the digits. -/
def normalize (d : Decimal) : Nat → Decimal
  | 0 => d
  | fuel + 1 =>
    if d.digits ≠ 0 && d.digits % 10 = 0 then normalize ⟨d.digits / 10, d.exponent + 1⟩ fuel else d

end Decimal

namespace Binary64

/-- Twice the distance of the lower end of the numbers that round to
    `mantissa · 2 ^ exponent`, in quarters of the last place: half a place, or a
    quarter below a power of two. -/
def lowerQuarters (mantissa : Nat) (exponent : Int) : Nat :=
  if mantissa = Nat.pow 2 52 && leastExponent < exponent then 1 else 2

/-- Whether a decimal rounds to `mantissa · 2 ^ exponent`. The ends of the range
    of values that round to it belong to it when the mantissa is even. -/
def roundsTo (mantissa : Nat) (exponent : Int) (d : Decimal) : Bool :=
  let (num, den) := d.quotient
  let (low, lowDen) := scaled (4 * mantissa - lowerQuarters mantissa exponent) 4 exponent
  let (high, highDen) := scaled (4 * mantissa + 2) 4 exponent
  let left := num * lowDen
  let right := low * den
  let left' := num * highDen
  let right' := high * den
  if mantissa % 2 = 0 then right ≤ left && left' ≤ right' else right < left && left' < right'

/-- The power of ten at or below a positive quotient. -/
def tenthPower (num den : Nat) : Int :=
  let guess : Int := (Nat.toDigits 10 num).length - (Nat.toDigits 10 den).length
  if Nat.pow 10 (-guess).toNat * num < Nat.pow 10 guess.toNat * den then guess - 1 else guess

/-- The neighbours of a quotient among the multiples of `10 ^ exponent`, the
    nearer one first; of two equally near the even one. -/
def neighbours (num den : Nat) (exponent : Int) : List Decimal :=
  let n := num * Nat.pow 10 (-exponent).toNat
  let d := den * Nat.pow 10 exponent.toNat
  let below := n / d
  let twice := 2 * (n % d)
  if twice < d || (twice = d && below % 2 = 0) then [⟨below, exponent⟩, ⟨below + 1, exponent⟩]
  else [⟨below + 1, exponent⟩, ⟨below, exponent⟩]

/-- The first decimal with the given number of digits, or up to `more` digits
    beyond, that rounds to the number. -/
def shortestFrom (mantissa : Nat) (exponent : Int) (num den : Nat) (top : Int) (digits : Nat) : Nat → Decimal
  | 0 => ⟨num / den, 0⟩
  | more + 1 =>
    match (neighbours num den (top + 1 - digits)).find? (roundsTo mantissa exponent) with
    | some d => d
    | none => shortestFrom mantissa exponent num den top (digits + 1) more

/-- The shortest decimal of a positive finite number; seventeen digits always suffice. -/
def shortest (mantissa : Nat) (exponent : Int) : Decimal :=
  let (num, den) := scaled mantissa 1 exponent
  if mantissa = 0 then ⟨0, 0⟩
  else (shortestFrom mantissa exponent num den (tenthPower num den) 1 17).normalize 17

example : shortest (Nat.pow 2 52) 12 = ⟨18446744073709552, 3⟩ := by decide +kernel
example : shortest 1 (-1074) = ⟨5, -324⟩ := by decide +kernel
example : shortest 3602879701896397 (-55) = ⟨1, -1⟩ := by decide +kernel

end Binary64

end Polyglot
