/-!
# Digits

Digits of the bases up to sixteen and the number that a row of them spells.
-/

namespace Polyglot.Digits

/-- The value of a digit of any base up to sixteen, in either case. -/
def value? (c : Char) : Option Nat :=
  if '0' ≤ c && c ≤ '9' then some (c.toNat - '0'.toNat)
  else if 'a' ≤ c && c ≤ 'f' then some (c.toNat - 'a'.toNat + 10)
  else if 'A' ≤ c && c ≤ 'F' then some (c.toNat - 'A'.toNat + 10)
  else none

/-- Whether a character is a digit of a base. -/
def isDigitOf (base : Nat) (c : Char) : Bool := (value? c).any (· < base)

/-- The number that digits spell in a base. -/
def number (base : Nat) (digits : List Char) : Nat :=
  digits.foldl (fun n c => base * n + (value? c).getD 0) 0

theorem number_append_singleton (base : Nat) (digits : List Char) (c : Char) :
    number base (digits ++ [c]) = base * number base digits + (value? c).getD 0 := by
  simp [number]

example : number 10 ['0', '4', '2'] = 42 ∧ number 16 ['f', 'F'] = 255 := by decide

end Polyglot.Digits
