import Polyglot.Json.Basic
import Polyglot.Number.Layout
import Polyglot.Text.Quoted

/-!
# Problems with serialized values

Why a JSON text is malformed, and why a value does not have the shape that a
type asks for. Each cause has one wording.
-/

namespace Polyglot.Json

/-- What stood in the place of an expected value. -/
inductive Found
  | null
  | bool (value : Bool)
  | number (value : Number)
  | text (value : String)
  | list
  | object
  | unitVariant
  deriving Inhabited

/-- How a message names a value of the wrong kind. -/
def Found.describe : Found → String
  | .null => "null"
  | .bool value => "boolean `" ++ toString value ++ "`"
  | .number (.natural n) => "integer `" ++ toString n.toNat ++ "`"
  | .number (.negative n) => "integer `-" ++ toString n.toNat ++ "`"
  | .number (.real x) => "floating point `" ++ Layout.json.text x ++ "`"
  | .text value => "string " ++ Text.quoted value
  | .list => "sequence"
  | .object => "map"
  | .unitVariant => "unit variant"

/-- The kind of a value. -/
def found : Json → Found
  | .null => .null
  | .bool value => .bool value
  | .number n => .number n
  | .text value => .text value
  | .list _ => .list
  | .object _ => .object

/-- A cause for which reading or decoding fails. -/
inductive Problem
  | endInValue
  | endInString
  | endInList
  | endInObject
  | expectedValue
  | expectedLiteral
  | expectedColon
  | expectedListEnd
  | expectedObjectEnd
  | keyNotText
  | badNumber
  | numberOutOfRange
  | badEscape
  | loneSurrogate
  | unpairedSurrogate
  | controlCharacter
  | trailingComma
  | trailingCharacters
  | tooDeep
  | wrongType (found : Found) (expected : String)
  | wrongValue (found : Found) (expected : String)
  | wrongLength (length : Nat) (expected : String)
  | unknownVariant (name : String) (known : List String)
  | missingField (key : String)
  | duplicateField (key : String)
  deriving Inhabited

/-- The names that a variant may have, as a message lists them. -/
def alternatives : List String → String
  | [one] => "`" ++ one ++ "`"
  | [one, other] => "`" ++ one ++ "` or `" ++ other ++ "`"
  | names => "one of " ++ ", ".intercalate (names.map fun name => "`" ++ name ++ "`")

def Problem.message : Problem → String
  | .endInValue => "EOF while parsing a value"
  | .endInString => "EOF while parsing a string"
  | .endInList => "EOF while parsing a list"
  | .endInObject => "EOF while parsing an object"
  | .expectedValue => "expected value"
  | .expectedLiteral => "expected ident"
  | .expectedColon => "expected `:`"
  | .expectedListEnd => "expected `,` or `]`"
  | .expectedObjectEnd => "expected `,` or `\x7d`"
  | .keyNotText => "key must be a string"
  | .badNumber => "invalid number"
  | .numberOutOfRange => "number out of range"
  | .badEscape => "invalid escape"
  | .loneSurrogate => "lone leading surrogate in hex escape"
  | .unpairedSurrogate => "unexpected end of hex escape"
  | .controlCharacter => "control character (\\u0000-\\u001F) found while parsing a string"
  | .trailingComma => "trailing comma"
  | .trailingCharacters => "trailing characters"
  | .tooDeep => "recursion limit exceeded"
  | .wrongType found expected => "invalid type: " ++ found.describe ++ ", expected " ++ expected
  | .wrongValue found expected => "invalid value: " ++ found.describe ++ ", expected " ++ expected
  | .wrongLength length expected => "invalid length " ++ toString length ++ ", expected " ++ expected
  | .unknownVariant name known => "unknown variant `" ++ name ++ "`, expected " ++ alternatives known
  | .missingField key => "missing field `" ++ key ++ "`"
  | .duplicateField key => "duplicate field `" ++ key ++ "`"

end Polyglot.Json
