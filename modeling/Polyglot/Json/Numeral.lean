import Polyglot.Json.Cursor

/-!
# Numerals

The numbers of a JSON text. An integer that fits a word, or the negative integers
of a word, is exact. Any other numeral keeps the digits that fit a word as its
significand, which is rounded and then multiplied or divided by a power of ten,
each step rounding once; so the last place may differ from the nearest number.
-/

namespace Polyglot.Json

/-- The least integer that does not fit a word. -/
def wordBound : Nat := Nat.pow 2 64

def digitValue (c : Char) : Nat := c.toNat - '0'.toNat

/-- The significand of the digits before the point, and how many digits from the
    first that did not fit. -/
def wholeDigits (significand : Nat) : List Char → Nat × Nat
  | [] => (significand, 0)
  | c :: rest =>
    let longer := 10 * significand + digitValue c
    if wordBound ≤ longer then (significand, (c :: rest).length) else wholeDigits longer rest

/-- The significand with the digits after the point that fit, and how many did. -/
def fractionDigits (significand : Nat) : List Char → Nat × Nat
  | [] => (significand, 0)
  | c :: rest =>
    let longer := 10 * significand + digitValue c
    if wordBound ≤ longer then (significand, 0)
    else
      let (all, count) := fractionDigits longer rest
      (all, count + 1)

/-- A significand times a power of ten in single rounded steps; `none` when it
    exceeds every finite number. Two steps down reach zero, so the fuel is never used up. -/
def decimalSteps (x : Binary64) (exponent : Int) : Nat → Option Binary64
  | 0 => some x
  | fuel + 1 =>
    if exponent.natAbs ≤ 308 then
      let power := Binary64.ofDecimal false 1 exponent.natAbs
      if 0 ≤ exponent then
        let product := x.times power
        if product.isInfinite then none else some product
      else some (x.dividedBy power)
    else if x.isZero then some x
    else if 0 ≤ exponent then none
    else decimalSteps (x.dividedBy (Binary64.ofDecimal false 1 308)) (exponent + 308) fuel

namespace Reader

/-- The number of a significand and a power of ten. -/
def realOf (negative : Bool) (significand : Nat) (exponent : Int) : Reader Number :=
  match decimalSteps (Binary64.ofNat false significand) exponent 4 with
  | none => failHere .numberOutOfRange
  | some x => pure (.real (if negative then x.negate else x))

/-- The digits of an exponent, as long as its value fits 32 bits with a sign;
    `none` from the first digit that does not fit. -/
def exponentFrom : Nat → Nat → Reader (Option Nat)
  | 0, value => pure (some value)
  | fuel + 1, value => do
    match ← peek with
    | some c =>
      if c.isDigit then
        advance
        let longer := 10 * value + digitValue c
        if Nat.pow 2 31 ≤ longer then pure none else exponentFrom fuel longer
      else pure (some value)
    | none => pure (some value)

/-- Brings an exponent into the range of 32 bits with a sign. -/
def clampExponent (e : Int) : Int := max (-Int.pow 2 31) (min e (Int.pow 2 31 - 1))

/-- The exponent after its letter, and the number. -/
def exponentPart (negative : Bool) (significand : Nat) (exponent : Int) : Reader Number := do
  advance
  let raised ← do
    match ← peek with
    | some '+' =>
      advance
      pure true
    | some '-' =>
      advance
      pure false
    | _ => pure true
  match ← peek with
  | none => failHere .endInValue
  | some c =>
    if !c.isDigit then failNext .badNumber
    else
      advance
      match ← exponentFrom ((← remaining) + 1) (digitValue c) with
      | some e =>
        realOf negative significand (clampExponent (if raised then exponent + e else exponent - e))
      | none =>
        if significand ≠ 0 && raised then failHere .numberOutOfRange
        else
          let _ ← takeWhile Char.isDigit
          pure (.real (Binary64.zero negative))

/-- The digits after the point, which is passed over, and the number. -/
def fractionPart (negative : Bool) (significand : Nat) (exponent : Int) : Reader Number := do
  advance
  let digits ← takeWhile Char.isDigit
  if digits = [] then
    match ← peek with
    | some _ => failNext .badNumber
    | none => failNext .endInValue
  else
    let (significand, count) := fractionDigits significand digits
    let exponent := exponent - count
    match ← peek with
    | some 'e' | some 'E' => exponentPart negative significand exponent
    | _ => realOf negative significand exponent

/-- A numeral after its sign. -/
def numeral (negative : Bool) : Reader Number := do
  match ← peek with
  | none => failHere .endInValue
  | some c =>
    if !c.isDigit then failNext .badNumber
    else
      let digits ← do
        if c = '0' then
          advance
          pure ['0']
        else takeWhile Char.isDigit
      let (significand, dropped) := wholeDigits 0 digits
      match ← peek with
      | some '.' => fractionPart negative significand dropped
      | some 'e' | some 'E' => exponentPart negative significand dropped
      | after =>
        if c = '0' && (after.map Char.isDigit).getD false then failNext .badNumber
        else if dropped ≠ 0 then realOf negative significand dropped
        else if !negative then pure (.natural (.ofNat significand))
        else if significand = 0 || Nat.pow 2 63 < significand then
          pure (.real (Binary64.ofNat true significand))
        else pure (.negative (.ofNat significand))

/-- Passes over the exponent of a numeral. -/
def skipExponent : Reader Unit := do
  advance
  match ← peek with
  | some '+' | some '-' => advance
  | _ => pure ()
  match ← peek with
  | none => failHere .badNumber
  | some c =>
    if c.isDigit then
      let _ ← takeWhile Char.isDigit
    else failNext .badNumber

/-- Passes over a numeral after its sign, without working out its value. -/
def skipNumeral : Reader Unit := do
  match ← peek with
  | none => failHere .badNumber
  | some c =>
    if !c.isDigit then failNext .badNumber
    else
      if c = '0' then
        advance
      else
        let _ ← takeWhile Char.isDigit
      match ← peek with
      | some '.' =>
        advance
        let digits ← takeWhile Char.isDigit
        if digits = [] then failNext .badNumber
        else
          match ← peek with
          | some 'e' | some 'E' => skipExponent
          | _ => pure ()
      | some 'e' | some 'E' => skipExponent
      | after =>
        if c = '0' && (after.map Char.isDigit).getD false then failNext .badNumber else pure ()

end Reader

end Polyglot.Json
