import Polyglot.Options

/-!
# Capabilities

What the parsers, printers and hooks of a kit do. Parsers and printers read the
options, hooks may change them. A capability that works on an embedded document
needs the capabilities themselves: `Capabilities.nest` closes rules that are given
the capabilities of one level less.
-/

namespace Polyglot

/-- Syntax trees are JSON values. -/
abbrev Tree := Json

/-- The options of a parse and the world that it runs in. -/
structure Invocation (κ : Kit) where
  options : Options κ
  world : World κ.State

/-- A step of a parse. What it did before a failure stays done. -/
abbrev Run (κ : Kit) (α : Type) := EStateM Fault (Invocation κ) α

namespace Run

variable {κ : Kit} {α : Type}

/-- A step that reads the options. -/
def ofAction (action : Options κ → Action κ.State α) : Run κ α := fun invocation =>
  match action invocation.options invocation.world with
  | .ok value world => .ok value { invocation with world }
  | .error fault world => .error fault { invocation with world }

/-- A step that changes the options. -/
def modifyOptions (change : Options κ → Options κ) : Run κ Unit :=
  modify fun invocation => { invocation with options := change invocation.options }

/-- Reports an event. -/
def report (event : Event) : Run κ Unit := ofAction fun _ => Action.report event

/-- Runs steps on options of their own, which are given back beside the outcome. -/
def on (options : Options κ) (run : Run κ α) : Action κ.State (α × Options κ) := fun world =>
  match run ⟨options, world⟩ with
  | .ok value after => .ok (value, after.options) after.world
  | .error fault after => .error fault after.world

end Run

/-- What a hook made of a tree: the tree with its edits, and a tree to take its place. -/
structure Edit where
  tree : Tree
  replacement : Option Tree := none

/-- What is known of capabilities without running them. -/
structure Profile (κ : Kit) where
  treeFormat : κ.Parser → String
  hookName : κ.Hook → String
  hookScope : κ.Hook → Scope
  /-- Whether a hook is to be run at a stage. -/
  declares : κ.Hook → Stage → Bool

/-- What the capabilities of a kit do. -/
structure Capabilities (κ : Kit) extends Profile κ where
  preprocess : κ.Parser → String → Options κ → Action κ.State String
  parse : κ.Parser → String → Options κ → Action κ.State Tree
  print : κ.Printer → Tree → Options κ → Action κ.State String
  beforeParse : κ.Hook → String → Run κ String
  afterParse : κ.Hook → Tree → Run κ Edit

namespace Capabilities

variable {κ : Kit}

/-- The failure of a document that is embedded too deep. -/
def tooDeep : Fault := .internal "embedded documents are nested too deep."

/-- Capabilities that refuse to work. -/
def refusing (profile : Profile κ) : Capabilities κ :=
  { profile with
    preprocess := fun _ _ _ => throw tooDeep
    parse := fun _ _ _ => throw tooDeep
    print := fun _ _ _ => throw tooDeep
    beforeParse := fun _ _ => throw tooDeep
    afterParse := fun _ _ => throw tooDeep }

/-- The capabilities whose embedded documents may be nested to a depth: the rules
    are given the capabilities for what is embedded. -/
def nest (profile : Profile κ) (rules : Capabilities κ → Capabilities κ) : Nat → Capabilities κ
  | 0 => rules (refusing profile)
  | depth + 1 => rules (nest profile rules depth)

end Capabilities

end Polyglot
