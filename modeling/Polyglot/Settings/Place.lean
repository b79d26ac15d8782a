import Polyglot.Settings.Setting

/-!
# Places

A key at the root of a source may name a place deeper down: `a.b` is the key `b`
in the table at `a`, and `a[0]` the first item of the list at `a`, where negative
indices count from the end. A key of any other shape names itself.
-/

namespace Polyglot

/-- A part of a setting. -/
inductive Place.Part
  | key (name : String)
  | index (position : Int)
  deriving DecidableEq

/-- Where a setting belongs, from the root. -/
abbrev Place := List Place.Part

namespace Place

/-! ## Reading -/

def isNameChar (c : Char) : Bool := c.isAlphanum || c = '_' || c = '-'

def isSpace (c : Char) : Bool := c = ' ' || c = '\t'

/-- The index that a text spells: decimal digits, perhaps after a minus sign. -/
def index? (text : List Char) : Option Int :=
  if text.head? = some '+' then none else Numeral.signed? text

/-- The parts after the first one. Every part takes a character, so as much fuel
    as there are characters is enough. -/
def partsFrom : Nat → List Char → Option (List Part)
  | _, [] => some []
  | 0, _ => none
  | fuel + 1, '.' :: text =>
    let name := text.takeWhile isNameChar
    if name = [] then none
    else (partsFrom fuel (text.dropWhile isNameChar)).map (.key (String.ofList name) :: ·)
  | fuel + 1, '[' :: text =>
    let start := text.dropWhile isSpace
    let digit (c : Char) : Bool := c.isDigit || c = '-'
    match index? (start.takeWhile digit), (start.dropWhile digit).dropWhile isSpace with
    | some position, ']' :: rest => (partsFrom fuel rest).map (.index position :: ·)
    | _, _ => none
  | _ + 1, _ => none

/-- The parts that a whole key spells. -/
def parts? (text : List Char) : Option (List Part) :=
  let name := text.takeWhile isNameChar
  if name = [] then none
  else (partsFrom text.length (text.dropWhile isNameChar)).map (.key (String.ofList name) :: ·)

/-- The place that a key at the root names. -/
def ofKey (key : String) : Place := (parts? key.toList).getD [.key key]

/-! ## Putting settings in their places -/

/-- The items of a list; other values make way for an empty list. -/
def itemsOf : Setting → List Setting × Option String
  | .list items origin => (items, origin)
  | _ => ([], none)

/-- The items with the one at an index changed. Items that are not there yet are
    unset, after the end or before the beginning. -/
def changeItem (change : Setting → Setting) (position : Int) (items : List Setting) : List Setting :=
  if 0 ≤ position then
    let index := position.toNat
    let padded := items ++ List.replicate (index + 1 - items.length) .unset
    padded.modify index change
  else
    let back := (-position).toNat
    if back ≤ items.length then items.modify (items.length - back) change
    else (List.replicate (back - items.length) Setting.unset ++ items).modify 0 change

/-- Changes the setting at a place, making the tables and the lists on the way. -/
def change (f : Setting → Setting) : Place → Setting → Setting
  | [], setting => f setting
  | .key name :: place, setting =>
    .table (setting.entries.insert name (change f place (setting.member name))) setting.tableOrigin
  | .index position :: place, setting =>
    let (items, origin) := itemsOf setting
    .list (changeItem (change f place) position items) origin

end Place

namespace Setting

/-- What is known after a source that says `value` under a key at its root. -/
def put (known : Setting) (key : String) (value : Setting) : Setting :=
  Place.change (·.merge value) (Place.ofKey key) known

/-- What is known after a source. -/
def putAll (known : Setting) (source : Table Setting) : Setting :=
  source.foldl (fun known (key, value) => known.put key value) known

/-- Nothing is known yet. -/
def empty : Setting := .table [] none

end Setting

example : Place.ofKey "code_frame.lines_above" = [.key "code_frame", .key "lines_above"] := by decide +kernel
example : Place.ofKey "a[-1].b" = [.key "a", .index (-1), .key "b"] := by decide +kernel
example : Place.ofKey "a..b" = [.key "a..b"] ∧ Place.ofKey "" = [.key ""] := by decide +kernel

end Polyglot
