import Polyglot.Codec.Basic

/-!
# Choices

The serialized form of a type with named variants. A variant that carries nothing
is its name; one that carries a text is an object with the name as its only key.
A name with the value null also stands for a variant that carries nothing.
-/

namespace Polyglot.Codec

/-- What a variant carries. -/
inductive Variant (α : Type)
  | unit (value : α)
  | carrying (make : String → α)

/-- A type with named variants; `name` gives the name of a value and what it carries. -/
structure Choice (α : Type) where
  variants : List (String × Variant α)
  name : α → String × Option String

namespace Choice

variable {α : Type}

def encode (choice : Choice α) (value : α) : Json :=
  match choice.name value with
  | (name, none) => .text name
  | (name, some carried) => .singleton name (.text carried)

def variant (choice : Choice α) (name : String) : Except Json.Problem (Variant α) :=
  match choice.variants.lookup name with
  | some variant => .ok variant
  | none => .error (.unknownVariant name (choice.variants.map Prod.fst))

/-- The value of a name that stands alone. -/
def ofName : Variant α → Except Json.Problem α
  | .unit value => .ok value
  | .carrying _ => .error (.wrongType .unitVariant "newtype variant")

def decode (choice : Choice α) : Json → Except Json.Problem α
  | .text name => do ofName (← choice.variant name)
  | .object [(name, value)] => do
    match ← choice.variant name with
    | .unit unit =>
      match value with
      | .null => pure unit
      | other => .error (.wrongType other.found "unit")
    | .carrying make => return make (← Codec.text.decode value)
  | .object _ => .error (.wrongValue .object "map with a single key")
  | other => .error (.wrongType other.found "string or map")

open Json.Reader in
/-- Reads the name of a variant. -/
def readName (choice : Choice α) : Json.Reader (Variant α) :=
  placed do ofExcept (choice.variant (← textValue "variant identifier"))

open Json.Reader in
def read (choice : Choice α) : Json.Reader α := do
  match ← skipSpaces with
  | none => failNext .endInValue
  | some '"' => ofExcept (ofName (← choice.readName))
  | some '{' =>
    advance
    let variant ← choice.readName
    colon
    let value ← match variant with
      | .unit unit => do
        nullValue
        pure unit
      | .carrying make => make <$> textValue "a string"
    match ← skipSpaces with
    | some '}' =>
      advance
      pure value
    | some _ => failHere .expectedValue
    | none => failHere .endInObject
  | some _ => failNext .expectedValue

end Choice

/-- The codec of a type with named variants. -/
def choice {α : Type} (c : Choice α) : Codec α where
  encode := c.encode
  decode := c.decode
  read := c.read

end Polyglot.Codec
