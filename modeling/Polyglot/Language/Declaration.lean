import Polyglot.Language.ObjectLiteral
import Polyglot.Text.Quoted

/-!
# Declarations and expressions

Two languages with one tree format: a declaration `let name = {key:value};`, and an
object literal that stands by itself.
-/

namespace Polyglot.Language

/-- A declaration of a name by an object literal. -/
structure Declaration where
  name : List Char
  init : ObjectLiteral
  deriving DecidableEq, Repr

namespace Declaration

def keyword : List Char := ['l', 'e', 't', ' ']

/-- Reads a declaration. The name ends at the first equals sign; blanks after the
    semicolon do not count. -/
def parse (text : List Char) : Except Problem Declaration :=
  let source := Text.trimEnd text
  match Text.dropWord keyword source with
  | none => .error ⟨0, "Expected `let`."⟩
  | some rest =>
    match Text.splitAtFirst ['='] rest with
    | none => .error ⟨source.length, "Expected `=`."⟩
    | some (name, rest) =>
      match Text.dropEndWord [';'] rest with
      | none => .error ⟨source.length, "Missing semicolon."⟩
      | some init =>
        match ObjectLiteral.parse init with
        | .error problem => .error (problem.shift (keyword.length + name.length + 1))
        | .ok init => .ok ⟨Text.trim name, init⟩

/-- The tree of a declaration. -/
def tree (declaration : Declaration) : Json :=
  .ofMembers [
    ("type", .text "File"),
    ("program", .ofMembers [
      ("type", .text "Program"),
      ("body", .list [
        .ofMembers [
          ("type", .text "VariableDeclaration"),
          ("declarations", .list [
            .ofMembers [
              ("id", ObjectLiteral.identifier declaration.name),
              ("init", declaration.init.tree)]])]])])]

/-- The text of a declaration. -/
def chars (declaration : Declaration) : List Char :=
  keyword ++ declaration.name ++ [' ', '=', ' '] ++ declaration.init.chars ++ [';']

/-- The declaration that a tree holds. -/
def ofTree (tree : Json) : Except Fault Declaration := do
  let declarator := ((((tree.member "program").member "body").item 0).member "declarations").item 0
  let name ← ObjectLiteral.nameOf (declarator.member "id")
  let init ← ObjectLiteral.ofTree (declarator.member "init")
  pure ⟨name, init⟩

end Declaration

/-- The tree of an object literal that stands by itself. -/
def expressionTree (literal : ObjectLiteral) : Json :=
  .ofMembers [("type", .text "JsExpressionRoot"), ("node", literal.tree)]

/-- The failure to print a tree of an unknown type. -/
def unknownRoot (type : Option String) : Fault :=
  .internal ("Unknown estree root " ++ Text.quotedOption type)

/-- Prints the tree of a declaration or of an expression. -/
def printEstree (tree : Json) : Except Fault (List Char) :=
  match (tree.member "type").text? with
  | some "File" => (Declaration.ofTree tree).map Declaration.chars
  | some "JsExpressionRoot" => (ObjectLiteral.ofTree (tree.member "node")).map ObjectLiteral.chars
  | other => .error (unknownRoot other)

end Polyglot.Language
