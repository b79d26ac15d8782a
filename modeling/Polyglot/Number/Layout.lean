import Polyglot.Number.Shortest

/-!
# Layouts of decimal texts

A layout says how a shortest decimal is spelled: between which powers of ten it
is written out positionally, and whether a whole number keeps a point and a zero.
Outside those powers it is written with an exponent.
-/

namespace Polyglot

/-- How the text of a binary64 number is laid out. -/
structure Layout where
  /-- The least and the greatest power of the first digit that is written out;
      `none` writes out every number. -/
  positional : Option (Int × Int)
  /-- Whether a whole number that is written out ends with a point and a zero. -/
  keepsPoint : Bool

namespace Layout

/-- Every digit written out, and nothing else: the text of a setting. -/
def plain : Layout := ⟨none, false⟩

/-- Every digit written out, with a point: a setting named in a message. -/
def pointed : Layout := ⟨none, true⟩

/-- The text of a number in JSON: written out from `0.00001` up to sixteen digits
    before the point. -/
def json : Layout := ⟨some (-5, 15), true⟩

/-- Digits with the point after the one that stands for the power zero, where the
    first digit stands for the power `top`. -/
def written (digits : List Char) (top : Int) (keepsPoint : Bool) : List Char :=
  if top < 0 then
    ['0', '.'] ++ List.replicate (-top - 1).toNat '0' ++ digits
  else if (digits.length : Int) ≤ top + 1 then
    digits ++ List.replicate (top + 1 - digits.length).toNat '0' ++ (if keepsPoint then ['.', '0'] else [])
  else digits.take (top + 1).toNat ++ ['.'] ++ digits.drop (top + 1).toNat

/-- Digits with the point after the first one, and the power of the first. -/
def exponential (digits : List Char) (top : Int) : List Char :=
  let fraction := digits.drop 1
  digits.take 1 ++ (if fraction = [] then [] else '.' :: fraction) ++
    ['e', if top < 0 then '-' else '+'] ++ (toString top.natAbs).toList

/-- The magnitude of a finite number. -/
def magnitude (layout : Layout) (mantissa : Nat) (exponent : Int) : List Char :=
  let decimal := Binary64.shortest mantissa exponent
  let digits := (toString decimal.digits).toList
  let top := decimal.exponent + digits.length - 1
  if mantissa = 0 then written ['0'] 0 layout.keepsPoint
  else
    match layout.positional with
    | some (least, greatest) =>
      if top < least || greatest < top then exponential digits top else written digits top layout.keepsPoint
    | none => written digits top layout.keepsPoint

/-- The text of a number. -/
def text (layout : Layout) : Binary64 → String
  | .nan => "NaN"
  | .infinite negative => if negative then "-inf" else "inf"
  | .finite negative mantissa exponent =>
    String.ofList ((if negative then ['-'] else []) ++ layout.magnitude mantissa exponent)

example : json.text (.ofDecimal false 18446744073709551616 0) = "1.8446744073709552e+19" := by decide +kernel
example : json.text (.ofDecimal false 1 2) = "100.0" ∧ plain.text (.ofDecimal false 1 2) = "100" := by
  decide +kernel
example : json.text (.ofDecimal true 0 0) = "-0.0" ∧ plain.text (.ofDecimal false 15 (-1)) = "1.5" := by
  decide +kernel
example : json.text (.ofDecimal false 12 (-6)) = "0.000012" ∧ json.text (.ofDecimal false 12 (-7)) = "1.2e-6" := by
  decide +kernel

end Layout

end Polyglot
