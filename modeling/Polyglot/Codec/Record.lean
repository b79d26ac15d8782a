import Polyglot.Codec.Basic

/-!
# Records

The serialized form of a structure with two fields: an object whose unknown
members are ignored, or a list of the fields in their order. A field with a
default may be missing, and a field may be left out when it is written.
-/

namespace Polyglot

/-- A field of a serialized record. -/
structure Field (α : Type) where
  key : String
  codec : Codec α
  /-- The value of a missing field, when it may be missing. -/
  default : Option α
  /-- Whether the value is left out when the record is written. -/
  leftOut : α → Bool

namespace Field

variable {α : Type}

/-- A field that must be there. -/
def required (key : String) (codec : Codec α) : Field α := ⟨key, codec, none, fun _ => false⟩

/-- A field with a default, always written. -/
def defaulted (key : String) (codec : Codec α) (default : α) : Field α :=
  ⟨key, codec, some default, fun _ => false⟩

/-- A field that may be absent, and then is not written. -/
def optional (key : String) (codec : Codec α) : Field (Option α) :=
  ⟨key, codec.optional, some none, Option.isNone⟩

def encode (field : Field α) (value : α) : List (String × Json) :=
  if field.leftOut value then [] else [(field.key, field.codec.encode value)]

/-- The value of a field after all members: what was found, or the default. -/
def settle (field : Field α) (found : Option α) : Except Json.Problem α :=
  match found, field.default with
  | some value, _ => .ok value
  | none, some value => .ok value
  | none, none => .error (.missingField field.key)

end Field

namespace Codec

/-- A structure with two fields, taken apart by `parts` and put together by `make`. -/
structure Record (α β γ : Type) where
  name : String
  first : Field α
  second : Field β
  make : α → β → γ
  parts : γ → α × β

namespace Record

variable {α β γ : Type}

def expected (r : Record α β γ) : String := "struct " ++ r.name

def tooShort (r : Record α β γ) (length : Nat) : Json.Problem :=
  .wrongLength length (r.expected ++ " with 2 elements")

def encode (r : Record α β γ) (value : γ) : Json :=
  let (a, b) := r.parts value
  .ofMembers (r.first.encode a ++ r.second.encode b)

/-! ## From a value -/

/-- Decodes the members of an object in their order. -/
def decodeMembers (r : Record α β γ) (a : Option α) (b : Option β) :
    List (String × Json) → Except Json.Problem γ
  | [] => do
    let a ← r.first.settle a
    let b ← r.second.settle b
    pure (r.make a b)
  | (key, value) :: rest =>
    if key = r.first.key then
      if a.isSome then .error (.duplicateField key)
      else do decodeMembers r (some (← r.first.codec.decode value)) b rest
    else if key = r.second.key then
      if b.isSome then .error (.duplicateField key)
      else do decodeMembers r a (some (← r.second.codec.decode value)) rest
    else decodeMembers r a b rest

/-- The value of a field that a list has no item for. -/
def lacking {δ : Type} (r : Record α β γ) (field : Field δ) (length : Nat) : Except Json.Problem δ :=
  match field.default with
  | some value => .ok value
  | none => .error (r.tooShort length)

def decodeItems (r : Record α β γ) (items : List Json) : Except Json.Problem γ := do
  let a ← match items[0]? with
    | some item => r.first.codec.decode item
    | none => r.lacking r.first 0
  let b ← match items[1]? with
    | some item => r.second.codec.decode item
    | none => r.lacking r.second 1
  if 2 < items.length then .error (.wrongLength items.length "fewer elements in array")
  else pure (r.make a b)

def decode (r : Record α β γ) : Json → Except Json.Problem γ
  | .object members => r.decodeMembers none none members
  | .list items => r.decodeItems items
  | other => .error (.wrongType other.found r.expected)

/-! ## From a text -/

open Json.Reader in
/-- Reads the members of an object after its bracket. Every member takes a
    character, so as much fuel as there are characters left is enough. -/
def readMembers (r : Record α β γ) : Nat → Bool → Option α → Option β → Json.Reader γ
  | 0, _, _, _ => failHere .endInObject
  | fuel + 1, first, a, b => do
    if ← hasKey first then
      let name ← key
      if name = r.first.key then
        if a.isSome then failUnplaced (.duplicateField name)
        else
          colon
          let value ← r.first.codec.read
          readMembers r fuel false (some value) b
      else if name = r.second.key then
        if b.isSome then failUnplaced (.duplicateField name)
        else
          colon
          let value ← r.second.codec.read
          readMembers r fuel false a (some value)
      else
        colon
        skipValue
        readMembers r fuel false a b
    else
      let a ← ofExcept (r.first.settle a)
      let b ← ofExcept (r.second.settle b)
      pure (r.make a b)

open Json.Reader in
/-- Reads the fields from a list after its bracket. -/
def readItems (r : Record α β γ) : Json.Reader γ := do
  if ← hasItem true then
    let a ← r.first.codec.read
    let b ← do
      if ← hasItem false then r.second.codec.read else ofExcept (r.lacking r.second 1)
    pure (r.make a b)
  else
    let a ← ofExcept (r.lacking r.first 0)
    let b ← ofExcept (r.lacking r.second 1)
    pure (r.make a b)

open Json.Reader in
def read (r : Record α β γ) : Json.Reader γ :=
  placed do
    match ← skipSpaces with
    | none => failNext .endInValue
    | some '[' =>
      advance
      closedBy endList r.readItems
    | some '{' =>
      advance
      closedBy endObject do r.readMembers ((← remaining) + 1) true none none
    | some _ => wrongType r.expected

end Record

/-- The codec of a structure with two fields. -/
def record {α β γ : Type} (r : Record α β γ) : Codec γ where
  encode := r.encode
  decode := r.decode
  read := r.read

end Codec

end Polyglot
