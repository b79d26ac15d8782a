import Polyglot.Dispatch
import Polyglot.Registry.Resolve

/-!
# The pipeline

One parse: the parser and the hooks of its tree format are resolved, the raw text is
preprocessed and handed through the hooks, the text is committed to the options, the
parser runs, and the hooks work on the tree. Only a failure of the parser itself is
given a frame, of the raw text.
-/

namespace Polyglot

/-- How parses are run. -/
structure Pipeline where
  frame : FrameSettings := {}
  deriving DecidableEq, Inhabited, Repr

/-- What a parse gives: the text that the parser saw, and the tree after the hooks. -/
structure Parsed where
  text : String
  tree : Tree

namespace Pipeline

variable {κ : Kit}

def ofSettings (settings : Settings) : Pipeline := ⟨settings.frame⟩

/-- Puts the text that the parser is about to see into the options. -/
def commit (text : String) : Run κ Unit :=
  Run.modifyOptions fun options => { options with committed := some text }

/-- Runs a parser; a located failure is given a frame of the raw text. -/
def runParser (pipeline : Pipeline) (capabilities : Capabilities κ) (parser : κ.Parser) (raw text : String) :
    Run κ Tree := fun invocation =>
  match Run.ofAction (capabilities.parse parser text) invocation with
  | .ok tree after => .ok tree after
  | .error fault after =>
    .error (fault.framed pipeline.frame raw)
      { after with
        world := after.world.report
          [.failed (capabilities.treeFormat parser) fault.kind fault.location.isSome] }

/-- Parses with a parser that is already resolved. -/
def run (pipeline : Pipeline) (capabilities : Capabilities κ) (parser : κ.Parser) (raw : String) :
    Run κ Parsed := do
  let treeFormat := capabilities.treeFormat parser
  let resolved ← Run.ofAction fun options => options.registry.resolveHooks treeFormat
  let hooks ← Run.ofAction fun options => Dispatch.select capabilities.toProfile options.context resolved
  let preprocessed ← Run.ofAction (capabilities.preprocess parser raw)
  let text ← Dispatch.beforeParse capabilities hooks preprocessed
  commit text
  let parsed ← pipeline.runParser capabilities parser raw text
  let tree ← Dispatch.afterParse capabilities hooks parsed
  Run.report (.complete treeFormat hooks.length)
  pure ⟨text, tree⟩

/-- Begins a parse and resolves the parser that the options name. -/
def enter (profile : Profile κ) : Run κ κ.Parser :=
  Run.ofAction fun options => do
    Action.report (.entered options.context)
    options.registry.resolveParser profile options.context.parser

/-- Parses a text with the parser that the options name. -/
def parse (pipeline : Pipeline) (capabilities : Capabilities κ) (raw : String) : Run κ Parsed := do
  let parser ← enter capabilities.toProfile
  pipeline.run capabilities parser raw

/-- Prints a tree with the printer that the options have for a tree format. -/
def printOn (capabilities : Capabilities κ) (treeFormat : String) (tree : Tree) (options : Options κ) :
    Action κ.State String := do
  let printer ← options.registry.resolvePrinter treeFormat
  capabilities.print printer tree options

/-- Parses a text and prints the tree. The tree format is that of the parser that
    ran, whatever the hooks made of the options. -/
def format (pipeline : Pipeline) (capabilities : Capabilities κ) (raw : String) : Run κ String := do
  let parser ← enter capabilities.toProfile
  let parsed ← pipeline.run capabilities parser raw
  Run.ofAction (printOn capabilities (capabilities.treeFormat parser) parsed.tree)

/-- Parses an embedded document on options of its own, which are given back beside
    the result. -/
def parseOn (pipeline : Pipeline) (capabilities : Capabilities κ) (raw : String) (options : Options κ) :
    Action κ.State (Parsed × Options κ) :=
  Run.on options (pipeline.parse capabilities raw)

end Pipeline

end Polyglot
