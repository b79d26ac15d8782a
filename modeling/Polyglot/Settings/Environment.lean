import Polyglot.Settings.Setting
import Polyglot.Text.Search

/-!
# Environment variables

A variable `PARSEKIT__A__B` sets the key `b` of the table `a`; its name may be in
either case. A value that reads as a truth value, an integer or a floating-point
number is one, tried in this order, and any other value is a text.
-/

namespace Polyglot.Environment

/-- The variables that are set, by name. -/
abbrev Variables := Table String

/-- The lower case of a letter. Of the letters beyond ASCII only the Kelvin sign
    has a lower case that a key of the settings can hold. -/
def lower (c : Char) : Char := if c = '\u212A' then 'k' else c.toLower

/-- What the names of variables begin with. -/
def start : List Char := "parsekit__".toList

/-- The key that a variable sets, when it is one of those that set keys. -/
def key? (name : String) : Option String :=
  (Text.dropWord start (name.toList.map lower)).map fun key =>
    String.ofList (Text.replaceAll ['_', '_'] ['.'] key)

/-- What the value of a variable stands for. -/
def scalarOf (value : String) : Scalar :=
  let text := String.ofList (value.toList.map Char.toLower)
  if text = "true" then .bool true
  else if text = "false" then .bool false
  else
    match Numeral.signed? value.toList with
    | some n => .integer n
    | none =>
      match Numeral.real? value.toList with
      | some x => .real x
      | none => .text value

/-- What a problem with a variable says about its source. -/
def origin : String := "the environment"

/-- The keys that the variables set. -/
def source (assigned : Variables) : Table Setting :=
  assigned.filterMap fun (name, value) =>
    (key? name).map fun key => (key, .scalar (scalarOf value) (some origin))

example : key? "PARSEKIT__CODE_FRAME__LINES_ABOVE" = some "code_frame.lines_above" := by decide +kernel
example : key? "PARSEKIT_LEVEL" = none := by decide +kernel
example : scalarOf "TRUE" = .bool true ∧ scalarOf "007" = .integer 7 ∧ scalarOf " 3" = .text " 3" := by
  decide +kernel

end Polyglot.Environment
