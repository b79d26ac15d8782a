import Polyglot.Language.Declaration
import Polyglot.Language.Prose
import Polyglot.Language.Template
import Polyglot.Pipeline

/-!
# The built-in languages

Four parsers and three printers, for any kit that has them among its own. A template
and prose embed documents of the other languages: those are parsed and printed by
whatever the registry of the options has for them.
-/

namespace Polyglot

/-- The languages that are read. -/
inductive Language
  | declaration
  | expression
  | template
  | prose
  deriving DecidableEq, Inhabited, Repr

/-- The formats of the trees. -/
inductive TreeFormat
  | estree
  | vue
  | mdast
  deriving DecidableEq, Inhabited, Repr

namespace TreeFormat

def name : TreeFormat → String
  | .estree => "estree"
  | .vue => "vue"
  | .mdast => "mdast"

end TreeFormat

namespace Language

/-- The name of a language's parser. -/
def parserName : Language → String
  | .declaration => "babel"
  | .expression => "__vue_expression"
  | .template => "vue"
  | .prose => "markdown"

def treeFormat : Language → TreeFormat
  | .declaration | .expression => .estree
  | .template => .vue
  | .prose => .mdast

/-- The parser of the code in a block, by the name of its language. -/
def parserOfCode (language : List Char) : Option String :=
  if language = ['j', 's'] then some Language.declaration.parserName
  else if language = ['v', 'u', 'e'] then some Language.template.parserName
  else none

variable {κ : Kit}

/-- A tree, or the fault of a problem in the text. -/
def ofParse {α : Type} (text : List Char) (outcome : Except Problem α) (tree : α → Tree) : Except Fault Tree :=
  match outcome with
  | .ok value => .ok (tree value)
  | .error problem => .error (problem.fault text)

/-- Parses an embedded document with frames as by default. -/
def parseEmbedded (capabilities : Capabilities κ) (parser : String) (text : List Char) (options : Options κ) :
    Action κ.State Tree := do
  let (parsed, _) ← Pipeline.parseOn {} capabilities (.ofList text) (options.embedded parser)
  pure parsed.tree

/-- Parses a template and the expression of its binding. -/
def parseTemplate (capabilities : Capabilities κ) (text : List Char) (options : Options κ) :
    Action κ.State Tree := do
  match Template.parse text with
  | .error problem => throw (problem.fault text)
  | .ok (.plain text) => pure (Template.tree text .null [])
  | .ok (.bound before inner after) =>
    let tree ← parseEmbedded capabilities Language.expression.parserName inner options
    pure (Template.tree before tree after)

/-- Parses a block; code of a known language is an embedded document. -/
def parseBlock (capabilities : Capabilities κ) (options : Options κ) : Block → Action κ.State Tree
  | .prose text => pure (Block.proseTree text)
  | .code language text => do
    match parserOfCode language with
    | none => pure (Block.codeTree language text)
    | some parser =>
      let resolved ← options.registry.resolveParser capabilities.toProfile parser
      let tree ← parseEmbedded capabilities parser text options
      pure (Block.parsedTree language (capabilities.treeFormat resolved) tree)

/-- Parses prose block by block. -/
def parseProse (capabilities : Capabilities κ) (text : List Char) (options : Options κ) :
    Action κ.State Tree := do
  let children ← (Block.ofText text).mapM (parseBlock capabilities options)
  pure (Block.rootTree children)

/-- Parses a text. The capabilities are those for embedded documents. -/
def parse (capabilities : Capabilities κ) (language : Language) (text : String) (options : Options κ) :
    Action κ.State Tree :=
  let chars := text.toList
  match language with
  | .declaration => .ofExcept (ofParse chars (Declaration.parse chars) Declaration.tree)
  | .expression => .ofExcept (ofParse chars (ObjectLiteral.parse chars) expressionTree)
  | .template => parseTemplate capabilities chars options
  | .prose => parseProse capabilities chars options

/-- Prints the tree of a template. -/
def printTemplate (capabilities : Capabilities κ) (tree : Tree) (options : Options κ) : Action κ.State String := do
  let inner ← match tree.member "expression" with
    | .null => pure ""
    | embedded => Pipeline.printOn capabilities TreeFormat.estree.name embedded options
  pure (.ofList (Template.chars (tree.member "prefix").textOrEmpty.toList inner.toList
    (tree.member "suffix").textOrEmpty.toList))

/-- Prints a block. A tree of another type than prose and code leaves no text. -/
def printBlock (capabilities : Capabilities κ) (options : Options κ) (tree : Tree) :
    Action κ.State (List Char) := do
  match (tree.member "type").text? with
  | some "text" => pure (tree.member "value").textOrEmpty.toList
  | some "code" =>
    let body ← match (tree.member "format").text? with
      | some treeFormat => Pipeline.printOn capabilities treeFormat (tree.member "tree") options
      | none => pure (tree.member "value").textOrEmpty
    pure (Block.fenced (tree.member "lang").textOrEmpty.toList body.toList)
  | _ => pure []

/-- Prints the tree of prose block by block. -/
def printProse (capabilities : Capabilities κ) (tree : Tree) (options : Options κ) : Action κ.State String := do
  let blocks ← (tree.member "children").itemsOrNone.mapM (printBlock capabilities options)
  pure (.ofList blocks.flatten)

/-- Prints a tree. The capabilities are those for embedded trees. -/
def print (capabilities : Capabilities κ) (treeFormat : TreeFormat) (tree : Tree) (options : Options κ) :
    Action κ.State String :=
  match treeFormat with
  | .estree => .ofExcept ((printEstree tree).map String.ofList)
  | .vue => printTemplate capabilities tree options
  | .mdast => printProse capabilities tree options

end Language

end Polyglot
