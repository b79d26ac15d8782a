import Polyglot.Json.Basic
import Polyglot.Text.Blank
import Polyglot.Text.Lines
import Polyglot.Text.Search

/-!
# Prose

Lines of prose and fenced blocks of code. A line that begins with a fence opens a
block and names its language; the block runs to the next line that is a fence and
nothing else, or to the end of the text.
-/

namespace Polyglot.Language

/-- A part of a text. -/
inductive Block
  | prose (text : List Char)
  | code (language text : List Char)
  deriving DecidableEq, Repr

namespace Block

def fence : List Char := ['`', '`', '`']

/-- A line with its ending. -/
def ended (line : List Char) : List Char := line ++ ['\n']

/-- The block of some prose, if there is any. -/
def ofProse (text : List Char) : List Block := if text = [] then [] else [.prose text]

mutual

/-- The blocks of some lines after the prose that was read before them. -/
def proseFrom (text : List Char) : List (List Char) → List Block
  | [] => ofProse text
  | line :: rest =>
    match Text.dropWord fence line with
    | none => proseFrom (text ++ ended line) rest
    | some language => ofProse text ++ codeFrom language [] rest

/-- The blocks of some lines after the opening fence and the code that were read before them. -/
def codeFrom (language text : List Char) : List (List Char) → List Block
  | [] => [.code language text]
  | line :: rest =>
    if line = fence then .code language text :: proseFrom [] rest
    else codeFrom language (text ++ ended line) rest

end

/-- The blocks of a text. -/
def ofText (text : List Char) : List Block := proseFrom [] (Text.lines text)

/-- The tree of some prose. -/
def proseTree (text : List Char) : Json := .ofMembers [("type", .text "text"), ("value", .text (.ofList text))]

/-- The tree of code that no parser reads. -/
def codeTree (language text : List Char) : Json :=
  .ofMembers [("type", .text "code"), ("lang", .text (.ofList language)), ("value", .text (.ofList text))]

/-- The tree of code around the tree that its parser gave. -/
def parsedTree (language : List Char) (treeFormat : String) (tree : Json) : Json :=
  .ofMembers [
    ("type", .text "code"),
    ("lang", .text (.ofList language)),
    ("format", .text treeFormat),
    ("tree", tree)]

def rootTree (children : List Json) : Json := .ofMembers [("type", .text "root"), ("children", .list children)]

/-- Code between its fences, without the blanks at its end. -/
def fenced (language text : List Char) : List Char :=
  fence ++ ended language ++ ended (Text.trimEnd text) ++ ended fence

end Block

end Polyglot.Language
