import Polyglot.Number.Numeral

/-!
# Numerals of TOML

The spellings of numbers. An underscore may stand between two digits, a decimal
number has no zero before its first digit, and a floating-point number has digits
on both sides of its point.
-/

namespace Polyglot.Toml

/-- The digits of a row in which an underscore may stand between two of them. -/
def ungrouped (base : Nat) : List Char → Option (List Char)
  | [] => none
  | [c] => if Digits.isDigitOf base c then some [c] else none
  | c :: '_' :: rest =>
    if Digits.isDigitOf base c then (ungrouped base rest).map (c :: ·) else none
  | c :: rest =>
    if Digits.isDigitOf base c then (ungrouped base rest).map (c :: ·) else none

/-- The digits of a decimal number without a zero before them. -/
def whole? (text : List Char) : Option (List Char) :=
  match ungrouped 10 text with
  | none => none
  | some digits => if digits.head? = some '0' && digits ≠ ['0'] then none else some digits

/-- The number that a row of digits spells. -/
def grouped? (base : Nat) (text : List Char) : Option Int :=
  (ungrouped base text).map fun digits => (Digits.number base digits : Nat)

/-- An integer of any size. -/
def integer? : List Char → Option Int
  | '0' :: 'x' :: digits => grouped? 16 digits
  | '0' :: 'o' :: digits => grouped? 8 digits
  | '0' :: 'b' :: digits => grouped? 2 digits
  | token =>
    let (negative, rest) := Numeral.splitSign token
    (whole? rest).map fun digits =>
      let n : Int := (Digits.number 10 digits : Nat)
      if negative then -n else n

/-- Whether a text is the power of ten of a floating-point number. -/
def isPower : List Char → Bool
  | [] => false
  | letter :: rest =>
    (letter = 'e' || letter = 'E') && (ungrouped 10 (Numeral.splitSign rest).2).isSome

/-- Whether a character opens the power of ten of a decimal number. -/
def opensPower (c : Char) : Bool := c = 'e' || c = 'E'

/-- Whether a text is what makes a whole number a floating-point number: a
    fraction, a power of ten, or both. -/
def isRealTail : List Char → Bool
  | '.' :: rest =>
    let power := rest.dropWhile (!opensPower ·)
    (ungrouped 10 (rest.takeWhile (!opensPower ·))).isSome && (power = [] || isPower power)
  | power => isPower power

/-- A floating-point number. -/
def real? (token : List Char) : Option Binary64 :=
  let (_, rest) := Numeral.splitSign token
  let inWhole (c : Char) : Bool := c ≠ '.' && !opensPower c
  if rest = ['i', 'n', 'f'] || rest = ['n', 'a', 'n'] then Numeral.real? token
  else if (whole? (rest.takeWhile inWhole)).isSome && isRealTail (rest.dropWhile inWhole) then
    Numeral.real? (token.filter (· ≠ '_'))
  else none

example : integer? "1_000".toList = some 1000 ∧ integer? "0x1F".toList = some 31 := by decide +kernel
example : integer? "01".toList = none ∧ integer? "1__0".toList = none ∧ integer? "-0".toList = some 0 := by
  decide +kernel
example : real? "1_0.5e-1".toList = some (.ofDecimal false 105 (-2)) := by decide +kernel
example : real? "1.".toList = none ∧ real? ".5".toList = none ∧ real? "1".toList = none := by decide +kernel

end Polyglot.Toml
