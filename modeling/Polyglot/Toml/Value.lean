import Polyglot.Table
import Polyglot.Toml.Moment
import Polyglot.Toml.Numeral
import Polyglot.Toml.Text

/-!
# Values and tables

The values of keys, and how tables grow. A table remembers how it came to be,
because that decides what may still be put into it: a dotted key goes through
tables that dotted keys or headers on the way to deeper tables made, and no
further than where a table was written out.
-/

namespace Polyglot.Toml

/-- How a table came to be. -/
inductive Form
  /-- By its own header. -/
  | header
  /-- On the way of a header to a deeper table. -/
  | step
  /-- On the way of a dotted key. -/
  | dotted
  /-- As a value between braces; it is complete. -/
  | braced
  deriving DecidableEq, Inhabited

/-- The value of a key. -/
inductive Value
  | bool (value : Bool)
  | integer (value : Int)
  | real (value : Binary64)
  | text (value : String)
  | moment (value : Moment)
  | list (items : List Value)
  | table (form : Form) (entries : List (String × Value))
  /-- The tables of a repeated header; the last one still grows. -/
  | tables (earlier : List (List (String × Value))) (last : List (String × Value))
  deriving Inhabited

/-- Puts a value under a dotted key. The key must be new, and the table that holds
    it must be the one the dots start from or have been made by dots. -/
def assign (value : Value) : List String → Table Value → Option (Table Value)
  | [], _ => none
  | [key], table => if (table.lookup key).isSome then none else some (table.insert key value)
  | step :: key :: path, table =>
    match table.lookup step with
    | none => (assign value (key :: path) []).map fun inner => table.insert step (.table .dotted inner)
    | some (.table form entries) =>
      if form = .dotted || (form = .step && path ≠ []) then
        (assign value (key :: path) entries).map fun inner => table.insert step (.table form inner)
      else none
    | some _ => none

/-! ## Reading -/

def isKeyChar (c : Char) : Bool := c.isAlphanum || c = '_' || c = '-'

/-- Whether a character may stand in a value that has neither quotes nor brackets. -/
def isScalarChar (c : Char) : Bool := isKeyChar c || c = '+' || c = '.' || c = ':'

/-- The value that a token spells. -/
def scalar? (token : List Char) : Option Value :=
  if token = ['t', 'r', 'u', 'e'] then some (.bool true)
  else if token = ['f', 'a', 'l', 's', 'e'] then some (.bool false)
  else (integer? token).map .integer <|> (real? token).map .real <|> (moment? token).map .moment

namespace Scan

/-- One part of a key. -/
def keyPart : Scan String := do
  match ← peek with
  | none => failure
  | some c =>
    if c = '"' || c = '\'' then lineText
    else
      let part ← takeWhile isKeyChar
      if part = [] then failure else pure (String.ofList part)

/-- The parts of a key between its dots. -/
def keyParts : Nat → Scan (List String)
  | 0 => failure
  | fuel + 1 => do
    let part ← keyPart
    spaces
    if ← acceptIf '.' then
      spaces
      let more ← keyParts fuel
      pure (part :: more)
    else pure [part]

def key : Scan (List String) := do keyParts ((← remaining) + 1)

/-- A token, which goes on after a space when it is a date and a digit follows. -/
def token : Scan (List Char) := do
  let first ← takeWhile isScalarChar
  fun rest =>
    match rest with
    | ' ' :: digit :: more =>
      if isDate first && digit.isDigit then
        (takeWhile isScalarChar).map (first ++ ' ' :: ·) (digit :: more)
      else some (first, rest)
    | _ => some (first, rest)

/-- The items of a list after its bracket. -/
def items (item : Scan Value) : Nat → Scan (List Value)
  | 0 => failure
  | fuel + 1 => do
    blanks
    if ← acceptIf ']' then pure []
    else
      let first ← item
      blanks
      if ← acceptIf ',' then
        let more ← items item fuel
        pure (first :: more)
      else
        accept ']'
        pure [first]

/-- The entries of a table after its brace. -/
def entries (item : Scan Value) : Nat → Table Value → Scan (Table Value)
  | 0, _ => failure
  | fuel + 1, table => do
    blanks
    if ← acceptIf '}' then pure table
    else
      let path ← key
      accept '='
      spaces
      let value ← item
      let table ← StateT.lift (assign value path table)
      blanks
      if ← acceptIf ',' then entries item fuel table
      else
        accept '}'
        pure table

/-- A value whose lists and tables are nested at most `depth` deep. -/
def value (depth : Nat) : Scan Value := do
  match ← peek with
  | none => failure
  | some c =>
    if c = '"' || c = '\'' then .text <$> text
    else if c = '[' || c = '{' then
      match depth with
      | 0 => failure
      | depth + 1 =>
        accept c
        let fuel := (← remaining) + 1
        if c = '[' then .list <$> items (value depth) fuel
        else .table .braced <$> entries (value depth) fuel []
    else
      match scalar? (← token) with
      | some value => pure value
      | none => failure

end Scan

end Polyglot.Toml
