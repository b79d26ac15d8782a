import Polyglot.Json.Basic
import Polyglot.Language.Problem
import Polyglot.Text.Blank
import Polyglot.Text.Search

/-!
# Object literals

An object with one property, `{key:value}`. The key ends at the first colon; blanks
around the literal, the key and the value do not count. Key and value may hold any
other character, also braces.
-/

namespace Polyglot.Language

/-- An object with one property. -/
structure ObjectLiteral where
  key : List Char
  value : List Char
  deriving DecidableEq, Repr

namespace ObjectLiteral

/-- What stands between the braces of a text that begins and ends with them. -/
def inner? (text : List Char) : Option (List Char) :=
  (Text.dropWord ['{'] text).bind (Text.dropEndWord ['}'])

/-- Reads a literal. A problem is placed at the first character that is not blank. -/
def parse (text : List Char) : Except Problem ObjectLiteral :=
  let opening := (text.takeWhile Text.isBlank).length
  match inner? (Text.trim text) with
  | none => .error ⟨opening, "Expected an object literal."⟩
  | some inner =>
    match Text.splitAtFirst [':'] inner with
    | none => .error ⟨opening, "Expected `key:value`."⟩
    | some (key, value) => .ok ⟨Text.trim key, Text.trim value⟩

/-- The tree of an identifier. -/
def identifier (name : List Char) : Json :=
  .ofMembers [("type", .text "Identifier"), ("name", .text (.ofList name))]

/-- The tree of a literal. -/
def tree (literal : ObjectLiteral) : Json :=
  .ofMembers [
    ("type", .text "ObjectExpression"),
    ("properties", .list [
      .ofMembers [("key", identifier literal.key), ("value", identifier literal.value)]])]

/-- The text of a literal. -/
def chars (literal : ObjectLiteral) : List Char :=
  ['{', ' '] ++ literal.key ++ [':', ' '] ++ literal.value ++ [' ', '}']

def identifierWithoutName : Fault := .internal "Identifier without a name"

/-- The name in the tree of an identifier. -/
def nameOf (tree : Json) : Except Fault (List Char) :=
  match (tree.member "name").text? with
  | some name => .ok name.toList
  | none => .error identifierWithoutName

/-- The literal that a tree holds, in any tree with names where a literal has them. -/
def ofTree (tree : Json) : Except Fault ObjectLiteral := do
  let property := (tree.member "properties").item 0
  let key ← nameOf (property.member "key")
  let value ← nameOf (property.member "value")
  pure ⟨key, value⟩

theorem nameOf_identifier (name : List Char) : nameOf (identifier name) = .ok name := by
  have named : (identifier name).member "name" = .text (String.ofList name) := rfl
  simp [nameOf, named, Json.text?]

end ObjectLiteral

end Polyglot.Language
