import Polyglot.Language.Problem
import Polyglot.Json.Basic
import Polyglot.Text.Blank
import Polyglot.Text.Search

/-!
# Templates

A text with at most one style binding, `:style="..."`. What stands between its
quotes is a document of another language.
-/

namespace Polyglot.Language

/-- A template, cut around its binding: the prefix ends with the opening quote, the
    suffix begins with the closing one. -/
inductive Template
  | plain (text : List Char)
  | bound (before expression after : List Char)
  deriving DecidableEq, Repr

namespace Template

/-- What the binding begins with. -/
def binding : List Char := [':', 's', 't', 'y', 'l', 'e', '=', '"']

/-- Cuts a text at its first binding. -/
def parse (text : List Char) : Except Problem Template :=
  match Text.splitAtFirst binding text with
  | none => .ok (.plain text)
  | some (before, rest) =>
    match Text.splitAtFirst ['"'] rest with
    | none => .error ⟨before.length, "Unterminated attribute."⟩
    | some (expression, after) => .ok (.bound (before ++ binding) expression ('"' :: after))

/-- The tree of a template around the tree of its expression. -/
def tree (before : List Char) (expression : Json) (after : List Char) : Json :=
  .ofMembers [
    ("type", .text "VueTemplate"),
    ("prefix", .text (.ofList before)),
    ("expression", expression),
    ("suffix", .text (.ofList after))]

/-- The text of a template around the text of its expression: it ends with one newline. -/
def chars (before expression after : List Char) : List Char :=
  Text.trimEnd (before ++ expression ++ after) ++ ['\n']

end Template

end Polyglot.Language
