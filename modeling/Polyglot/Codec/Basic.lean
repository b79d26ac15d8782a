import Polyglot.Json.Reader

/-!
# Codecs

A codec is the serialized form of a type: how a value becomes JSON, and how it
is had back, from a JSON value or straight from a JSON text. Reading from a text
finds the problems in the order of the text and says where they are; decoding a
value finds them in the order of its members.
-/

namespace Polyglot

/-- The serialized form of a type. -/
structure Codec (α : Type) where
  encode : α → Json
  decode : Json → Except Json.Problem α
  read : Json.Reader α

namespace Json.Reader

/-- Passes over a value of a kind that is not expected, and fails with it. The
    content of a list or an object is not looked at. -/
def wrongType {α : Type} (expected : String) : Reader α := do
  match ← peek with
  | some 'n' =>
    advance
    literal ['u', 'l', 'l']
    failUnplaced (.wrongType .null expected)
  | some 't' =>
    advance
    literal ['r', 'u', 'e']
    failUnplaced (.wrongType (.bool true) expected)
  | some 'f' =>
    advance
    literal ['a', 'l', 's', 'e']
    failUnplaced (.wrongType (.bool false) expected)
  | some '-' =>
    advance
    failUnplaced (.wrongType (.number (← numeral true)) expected)
  | some '"' =>
    advance
    failUnplaced (.wrongType (.text (← string)) expected)
  | some '[' => failUnplaced (.wrongType .list expected)
  | some '{' => failUnplaced (.wrongType .object expected)
  | some c =>
    if c.isDigit then failUnplaced (.wrongType (.number (← numeral false)) expected)
    else failNext .expectedValue
  | none => failNext .expectedValue

/-- Gives the outcome of a decoding to a reader. -/
def ofExcept {α : Type} : Except Problem α → Reader α
  | .ok value => pure value
  | .error problem => failUnplaced problem

/-- A text value; `expected` names what it should be. -/
def textValue (expected : String) : Reader String :=
  placed do
    match ← skipSpaces with
    | none => failNext .endInValue
    | some '"' =>
      advance
      string
    | some _ => wrongType expected

/-- The value null. -/
def nullValue : Reader Unit :=
  placed do
    match ← skipSpaces with
    | none => failNext .endInValue
    | some 'n' =>
      advance
      literal ['u', 'l', 'l']
    | some _ => wrongType "unit"

end Json.Reader

namespace Codec

open Json (Problem)

/-- The word that a number is. -/
def wordOf : Json.Number → Except Problem UInt64
  | .natural n => .ok n
  | .negative n => .error (.wrongValue (.number (.negative n)) "usize")
  | .real x => .error (.wrongType (.number (.real x)) "usize")

/-- A 64-bit word. -/
def word : Codec UInt64 where
  encode := Json.word
  decode
    | .number n => wordOf n
    | other => .error (.wrongType other.found "usize")
  read := .placed do
    match ← Json.Reader.skipSpaces with
    | none => .failNext .endInValue
    | some '-' =>
      Json.Reader.advance
      .ofExcept (wordOf (← Json.Reader.numeral true))
    | some c =>
      if c.isDigit then .ofExcept (wordOf (← Json.Reader.numeral false)) else .wrongType "usize"

/-- A text. -/
def text : Codec String where
  encode := .text
  decode
    | .text s => .ok s
    | other => .error (.wrongType other.found "a string")
  read := .textValue "a string"

/-- A value that may be absent, written as null. -/
def optional {α : Type} (codec : Codec α) : Codec (Option α) where
  encode
    | none => .null
    | some value => codec.encode value
  decode
    | .null => .ok none
    | json => (codec.decode json).map some
  read := do
    match ← Json.Reader.skipSpaces with
    | some 'n' =>
      Json.Reader.advance
      Json.Reader.literal ['u', 'l', 'l']
      pure none
    | _ => some <$> codec.read

/-- Any JSON value. -/
def any : Codec Json where
  encode := id
  decode := .ok
  read := .value Json.nestingLimit

/-- Reads a whole text as a value. -/
def ofText {α : Type} (codec : Codec α) (text : String) : Except Json.TextError α :=
  codec.read.run text

theorem decode_encode_word (n : UInt64) : word.decode (word.encode n) = .ok n := rfl

theorem decode_encode_text (s : String) : text.decode (text.encode s) = .ok s := rfl

end Codec

end Polyglot
