import Polyglot.Json.Basic
import Polyglot.Text.Search

/-!
# JSON pointers

A pointer names a place inside a value by the keys and indices that lead to it.
-/

namespace Polyglot.Json

/-- One key of a pointer: `~1` stands for a slash and `~0` for a tilde. -/
def unescapeKey (key : List Char) : String :=
  String.ofList (Text.replaceAll ['~', '0'] ['~'] (Text.replaceAll ['~', '1'] ['/'] key))

/-- The parts of a text between its slashes. -/
def splitSlashes : List Char → List (List Char)
  | [] => [[]]
  | c :: rest =>
    if c = '/' then [] :: splitSlashes rest
    else
      match splitSlashes rest with
      | [] => [[c]]
      | part :: more => (c :: part) :: more

/-- The keys of a pointer; a text that neither is empty nor begins with a slash
    is no pointer. -/
def pointerKeys? (pointer : String) : Option (List String) :=
  match pointer.toList with
  | [] => some []
  | '/' :: rest => some ((splitSlashes rest).map unescapeKey)
  | _ => none

/-- The index that a key names in a list: decimal digits without a leading zero. -/
def index? (key : String) : Option Nat :=
  let digits := key.toList
  if digits = [] || !digits.all Char.isDigit || (digits.head? = some '0' && digits.length ≠ 1) then none
  else
    let n := digits.foldl (fun n c => 10 * n + (c.toNat - '0'.toNat)) 0
    if n < Nat.pow 2 64 then some n else none

/-- The value one step further. -/
def child? (json : Json) (key : String) : Option Json :=
  match json with
  | .object members => members.lookup key
  | .list items => (index? key).bind fun i => items[i]?
  | _ => none

def getAt? (json : Json) : List String → Option Json
  | [] => some json
  | key :: keys => (json.child? key).bind fun child => child.getAt? keys

/-- Puts a value in place of the one that a step leads to. -/
def replaceChild (json : Json) (key : String) (value : Json) : Json :=
  match json with
  | .object members => .object (Table.insert key value members)
  | .list items => match index? key with
    | some i => .list (items.set i value)
    | none => .list items
  | other => other

/-- Changes the value at a place; without such a place nothing changes. -/
def modifyAt (change : Json → Json) (json : Json) : List String → Json
  | [] => change json
  | key :: keys =>
    match json.child? key with
    | some child => json.replaceChild key (child.modifyAt change keys)
    | none => json

/-- The value that a pointer names. -/
def pointer? (json : Json) (pointer : String) : Option Json :=
  (pointerKeys? pointer).bind json.getAt?

/-- Changes the value that a pointer names, if there is one. -/
def modifyPointer (json : Json) (pointer : String) (change : Json → Json) : Json :=
  match pointerKeys? pointer with
  | some keys => json.modifyAt change keys
  | none => json

end Polyglot.Json
