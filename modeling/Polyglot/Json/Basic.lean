import Polyglot.Number.Binary64
import Polyglot.Table

/-!
# JSON values

Syntax trees, settings of a caller and serialized values share this type. The
members of an object are a table: they stand in the order of their keys, each key
once.
-/

namespace Polyglot

namespace Json

/-- A number: a word, the magnitude of a negative integer, or a floating-point number. -/
inductive Number
  | natural (value : UInt64)
  | negative (magnitude : UInt64)
  | real (value : Binary64)
  deriving DecidableEq, Inhabited

end Json

/-- A JSON value. -/
inductive Json
  | null
  | bool (value : Bool)
  | number (value : Json.Number)
  | text (value : String)
  | list (items : List Json)
  | object (members : List (String × Json))
  deriving Inhabited

namespace Json

def word (n : UInt64) : Json := .number (.natural n)

def count (n : Nat) : Json := .number (.natural (.ofNat n))

/-- The object of members in any order. -/
def ofMembers (members : List (String × Json)) : Json := .object (Table.ofEntries members)

/-- The member of an object with the key. -/
def member? (key : String) : Json → Option Json
  | .object members => members.lookup key
  | _ => none

/-- The member with the key, or null. -/
def member (json : Json) (key : String) : Json := (json.member? key).getD .null

/-- The item of a list, or null. -/
def item (json : Json) (index : Nat) : Json :=
  match json with
  | .list items => items.getD index .null
  | _ => .null

def text? : Json → Option String
  | .text value => some value
  | _ => none

def textOrEmpty (json : Json) : String := json.text?.getD ""

def itemsOrNone : Json → List Json
  | .list items => items
  | _ => []

/-- Sets a member of an object; other values stay as they are. -/
def insert (json : Json) (key : String) (value : Json) : Json :=
  match json with
  | .object members => .object (Table.insert key value members)
  | other => other

/-- Removes a member of an object; other values stay as they are. -/
def erase (json : Json) (key : String) : Json :=
  match json with
  | .object members => .object (Table.erase key members)
  | other => other

/-- A one-member object. -/
def singleton (key : String) (value : Json) : Json := .object [(key, value)]

end Json

end Polyglot
