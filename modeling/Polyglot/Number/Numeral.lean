import Polyglot.Number.Binary64
import Polyglot.Number.Digits

/-!
# Numerals

Plain numerals: an optional sign and decimal digits, which for a floating-point
number may have a point and a power of ten. The texts of settings are read with
them when a number is wanted.
-/

namespace Polyglot.Numeral

/-- Whether a sign makes a numeral negative, and what follows the sign. -/
def splitSign : List Char → Bool × List Char
  | '-' :: rest => (true, rest)
  | '+' :: rest => (false, rest)
  | text => (false, text)

/-- One or more decimal digits. -/
def digits? (text : List Char) : Option Nat :=
  if text ≠ [] && text.all Char.isDigit then some (Digits.number 10 text) else none

/-- The integers that 64 bits with a sign hold. -/
def fitsSigned (n : Int) : Bool := -Int.pow 2 63 ≤ n && n < Int.pow 2 63

/-- A signed integer of 64 bits. -/
def signed? (text : List Char) : Option Int :=
  let (negative, rest) := splitSign text
  match digits? rest with
  | none => none
  | some n =>
    let value : Int := if negative then -n else n
    if fitsSigned value then some value else none

/-- A word of 64 bits, which may have a plus sign. -/
def word? (text : List Char) : Option UInt64 :=
  let rest := match text with
    | '+' :: rest => rest
    | _ => text
  match digits? rest with
  | none => none
  | some n => if n < Nat.pow 2 64 then some (.ofNat n) else none

/-- A power of ten: its letter, an optional sign and digits; nothing stands for zero. -/
def exponent? : List Char → Option Int
  | [] => some 0
  | letter :: rest =>
    if letter = 'e' || letter = 'E' then
      let (negative, digits) := splitSign rest
      (digits? digits).map fun n => if negative then -n else n
    else none

/-- A floating-point number without its sign: digits with a point before, among or
    after them, and a power of ten. -/
def magnitude? (negative : Bool) (text : List Char) : Option Binary64 :=
  let whole := text.takeWhile Char.isDigit
  let (fraction, power) := match text.dropWhile Char.isDigit with
    | '.' :: more => (more.takeWhile Char.isDigit, more.dropWhile Char.isDigit)
    | rest => ([], rest)
  match digits? (whole ++ fraction), exponent? power with
  | some n, some exponent => some (.ofDecimal negative n (exponent - fraction.length))
  | _, _ => none

/-- A floating-point number, where `inf`, `infinity` and `nan` in either case are names. -/
def real? (text : List Char) : Option Binary64 :=
  let (negative, rest) := splitSign text
  let name := String.ofList (rest.map Char.toLower)
  if name = "inf" || name = "infinity" then some (.infinite negative)
  else if name = "nan" then some .nan
  else magnitude? negative rest

example : signed? ['-', '0', '7'] = some (-7) ∧ signed? ['+'] = none := by decide
example : word? ['+', '5'] = some 5 ∧ word? ['-', '5'] = none := by decide
example : real? ['2', '.', '5'] = some (.ofDecimal false 25 (-1)) ∧ real? ['.'] = none := by decide +kernel
example : real? ['1', 'e', '2'] = some (.ofDecimal false 1 2) ∧ real? ['-', 'I', 'n', 'f'] = some (.infinite true) := by
  decide +kernel

end Polyglot.Numeral
