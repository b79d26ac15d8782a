import Polyglot.Number.Digits
import Polyglot.Toml.Scan

/-!
# Dates and times

A moment is a date, a time of day, or both, and then perhaps with an offset from
universal time. It is written back in one form: `T` between date and time, `Z` for
universal time, and no zeros at the end of a fraction of a second.
-/

namespace Polyglot.Toml

structure Date where
  year : Nat
  month : Nat
  day : Nat

/-- A time of day; a fraction holds the first nine digits after the point. -/
structure Time where
  hour : Nat
  minute : Nat
  second : Option Nat
  fraction : Option (List Char)

/-- How far a clock is from universal time. -/
inductive Offset
  | universal
  | minutes (ahead : Int)

structure Moment where
  date : Option Date
  time : Option Time
  offset : Option Offset

namespace Date

def isLeap (year : Nat) : Bool := year % 4 = 0 && (year % 100 ≠ 0 || year % 400 = 0)

def daysIn (year month : Nat) : Nat :=
  if month = 2 then if isLeap year then 29 else 28
  else if month = 4 || month = 6 || month = 9 || month = 11 then 30
  else 31

def valid (date : Date) : Bool :=
  1 ≤ date.month && date.month ≤ 12 && 1 ≤ date.day && date.day ≤ daysIn date.year date.month

end Date

/-! ## Reading -/

namespace Scan

/-- A number of exactly `count` decimal digits. -/
def fixed (count : Nat) : Scan Nat := fun text =>
  let digits := text.take count
  if digits.length = count && digits.all Char.isDigit then
    some (Digits.number 10 digits, text.drop count)
  else none

def date : Scan Date := do
  let year ← fixed 4
  accept '-'
  let month ← fixed 2
  accept '-'
  let day ← fixed 2
  let date : Date := ⟨year, month, day⟩
  if date.valid then pure date else failure

/-- The digits of a fraction of a second. -/
def fraction : Scan (List Char) := do
  let digits ← takeWhile Char.isDigit
  if digits = [] then failure else pure (digits.take 9)

def time : Scan Time := do
  let hour ← fixed 2
  accept ':'
  let minute ← fixed 2
  let second ← if ← acceptIf ':' then some <$> fixed 2 else pure none
  let fraction ← if second.isSome then
      if ← acceptIf '.' then some <$> fraction else pure none
    else pure none
  if hour ≤ 23 && minute ≤ 59 && second.getD 0 ≤ 60 then pure ⟨hour, minute, second, fraction⟩ else failure

/-- The offset after a time, when there is one. -/
def offset : Scan (Option Offset) := do
  match ← peek with
  | none => pure none
  | some sign =>
    if sign = 'Z' || sign = 'z' then
      accept sign
      pure (some .universal)
    else if sign = '+' || sign = '-' then
      accept sign
      let hours ← fixed 2
      accept ':'
      let minutes ← fixed 2
      let ahead : Int := (60 * hours + minutes : Nat)
      if hours ≤ 23 && minutes ≤ 59 then pure (some (.minutes (if sign = '-' then -ahead else ahead)))
      else failure
    else failure

/-- A moment that begins with a date. -/
def dated : Scan Moment := do
  let date ← date
  match ← peek with
  | none => pure ⟨some date, none, none⟩
  | some c =>
    if c = 'T' || c = 't' || c = ' ' then
      accept c
      let time ← time
      pure ⟨some date, some time, ← offset⟩
    else failure

end Scan

/-- The moment that a whole token spells. -/
def moment? (token : List Char) : Option Moment :=
  match Scan.dated token, Scan.time token with
  | some (moment, []), _ => some moment
  | _, some (time, []) => some ⟨none, some time, none⟩
  | _, _ => none

/-- Whether a token is a date, so that a time may follow after a space. -/
def isDate (token : List Char) : Bool :=
  match Scan.date token with
  | some (_, []) => true
  | _ => false

/-! ## Writing -/

/-- A number with zeros before it up to a width. -/
def padded (width n : Nat) : String :=
  let digits := Nat.toDigits 10 n
  String.ofList (List.replicate (width - digits.length) '0' ++ digits)

def Date.text (date : Date) : String :=
  padded 4 date.year ++ "-" ++ padded 2 date.month ++ "-" ++ padded 2 date.day

/-- A fraction keeps one zero when it has no other digit. -/
def fractionText (digits : List Char) : String :=
  let significant := (digits.reverse.dropWhile (· = '0')).reverse
  "." ++ String.ofList (if significant = [] then ['0'] else significant)

def Time.text (time : Time) : String :=
  padded 2 time.hour ++ ":" ++ padded 2 time.minute ++
    (time.second.elim "" fun second => ":" ++ padded 2 second) ++ time.fraction.elim "" fractionText

def Offset.text : Offset → String
  | .universal => "Z"
  | .minutes ahead =>
    (if ahead < 0 then "-" else "+") ++ padded 2 (ahead.natAbs / 60) ++ ":" ++ padded 2 (ahead.natAbs % 60)

def Moment.text (moment : Moment) : String :=
  moment.date.elim "" Date.text ++
    (if moment.date.isSome && moment.time.isSome then "T" else "") ++
    moment.time.elim "" Time.text ++ moment.offset.elim "" Offset.text

example : (moment? "1979-05-27 07:32:00.500z".toList).map Moment.text = some "1979-05-27T07:32:00.5Z" := by
  decide +kernel
example : (moment? "2023-02-29".toList).isNone ∧ (moment? "2024-02-29".toList).isSome := by decide +kernel
example : (moment? "07:32".toList).map Moment.text = some "07:32" := by decide +kernel

end Polyglot.Toml
