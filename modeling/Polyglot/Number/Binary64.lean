/-!
# Binary floating-point numbers

The numbers with 53 significant bits that settings and JSON texts may hold, as
exact values: a finite number is `± mantissa · 2 ^ exponent`. Rounding is to the
nearest number, a tie going to the even mantissa; every operation rounds the
exact result once.
-/

namespace Polyglot

/-- A binary64 number. A finite number is kept in canonical form: either the
    mantissa has 53 bits, or the exponent is the least one. -/
inductive Binary64
  | finite (negative : Bool) (mantissa : Nat) (exponent : Int)
  | infinite (negative : Bool)
  | nan
  deriving DecidableEq, Inhabited, Repr

namespace Binary64

/-- The exponent of the numbers nearest to zero. -/
def leastExponent : Int := -1074

/-- The exponent of the numbers farthest from zero. -/
def greatestExponent : Int := 971

def zero (negative : Bool) : Binary64 := .finite negative 0 leastExponent

/-- A quotient times a power of two, as a quotient. -/
def scaled (num den : Nat) (exponent : Int) : Nat × Nat :=
  (num * Nat.pow 2 exponent.toNat, den * Nat.pow 2 (-exponent).toNat)

/-- The quotient rounded to a whole number, a half going to the even neighbour. -/
def roundHalfEven (num den : Nat) : Nat :=
  let quotient := num / den
  let twice := 2 * (num % den)
  if den < twice || (twice = den && quotient % 2 = 1) then quotient + 1 else quotient

/-- The exponent whose multiples hold the canonical neighbours of a positive quotient. -/
def exponentOf (num den : Nat) : Int :=
  let low := max ((num.log2 : Int) - den.log2 - 53) leastExponent
  let (n, d) := scaled num den (-low)
  if n / d < Nat.pow 2 53 then low else low + 1

/-- The number nearest to `± num / den`, where `den` is not zero. -/
def ofQuotient (negative : Bool) (num den : Nat) : Binary64 :=
  if num = 0 then zero negative
  else
    let exponent := exponentOf num den
    let (n, d) := scaled num den (-exponent)
    let mantissa := roundHalfEven n d
    let (mantissa, exponent) := if mantissa = Nat.pow 2 53 then (Nat.pow 2 52, exponent + 1) else (mantissa, exponent)
    if greatestExponent < exponent then .infinite negative else .finite negative mantissa exponent

def ofNat (negative : Bool) (n : Nat) : Binary64 := ofQuotient negative n 1

/-- The number nearest to `± digits · 10 ^ exponent`. Beyond the powers of ten
    that a finite number can come near, the answer is known without them. -/
def ofDecimal (negative : Bool) (digits : Nat) (exponent : Int) : Binary64 :=
  let magnitude := ((Nat.toDigits 10 digits).length : Int) + exponent
  if digits = 0 then zero negative
  else if 310 < magnitude then .infinite negative
  else if magnitude < -330 then zero negative
  else ofQuotient negative (digits * Nat.pow 10 exponent.toNat) (Nat.pow 10 (-exponent).toNat)

/-- The magnitude of a finite number as a quotient, and whether it is negative. -/
def quotient? : Binary64 → Option (Bool × Nat × Nat)
  | .finite negative mantissa exponent =>
    let (num, den) := scaled mantissa 1 exponent
    some (negative, num, den)
  | _ => none

/-- The product of finite numbers; of others there is none here. -/
def times (x y : Binary64) : Binary64 :=
  match x.quotient?, y.quotient? with
  | some (s, n, d), some (t, m, e) => ofQuotient (s != t) (n * m) (d * e)
  | _, _ => .nan

/-- The quotient of finite numbers by finite ones other than zero; of others
    there is none here. -/
def dividedBy (x y : Binary64) : Binary64 :=
  match x.quotient?, y.quotient? with
  | some (s, n, d), some (t, m, e) => if m = 0 then .nan else ofQuotient (s != t) (n * e) (d * m)
  | _, _ => .nan

def isZero : Binary64 → Bool
  | .finite _ mantissa _ => mantissa = 0
  | _ => false

def isInfinite : Binary64 → Bool
  | .infinite _ => true
  | _ => false

def negate : Binary64 → Binary64
  | .finite negative mantissa exponent => .finite (!negative) mantissa exponent
  | .infinite negative => .infinite (!negative)
  | .nan => .nan

/-- The nearest whole number that fits a 64-bit word, a half going away from
    zero: numbers below zero give zero, numbers too large the greatest word, and
    what is not a number gives zero. -/
def toWord : Binary64 → UInt64
  | .nan => 0
  | .infinite negative => if negative then 0 else .ofNat (Nat.pow 2 64 - 1)
  | .finite negative mantissa exponent =>
    let (num, den) := scaled mantissa 1 exponent
    if negative then 0 else .ofNat (min ((2 * num + den) / (2 * den)) (Nat.pow 2 64 - 1))

example : ofDecimal false 15 (-1) = .finite false (3 * Nat.pow 2 51) (-52) := by decide +kernel
example : ofDecimal false 5 (-324) = .finite false 1 (-1074) := by decide +kernel
example : ofDecimal false 18446744073709551616 0 = .finite false (Nat.pow 2 52) 12 := by decide +kernel
example : ofDecimal false 1 400 = .infinite false := by decide +kernel
example : (ofDecimal true 25 (-1)).toWord = 0 ∧ (ofDecimal false 25 (-1)).toWord = 3 := by decide +kernel

end Binary64

end Polyglot
