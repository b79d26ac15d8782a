import Polyglot.Fault

/-!
# Scopes of hooks

A context names the parser about to run and, for an embedded document, the parser
that embeds it; earlier ancestors are forgotten. A scope restricts a hook to some
contexts.
-/

namespace Polyglot

/-- The parser about to run and the parser that embeds it. -/
structure Context where
  parser : String
  parent : Option String
  deriving DecidableEq, Inhabited, Repr

namespace Context

/-- The context of a document of its own. -/
def top (parser : String) : Context := ⟨parser, none⟩

/-- The context of a document embedded in this one. -/
def nested (context : Context) (parser : String) : Context := ⟨parser, some context.parser⟩

def isEmbedded (context : Context) : Bool := context.parent.isSome

/-- The context at the end of a chain of parsers, the outermost first. -/
def ofChain : List String → Context
  | [] => top ""
  | first :: rest => rest.foldl nested (top first)

end Context

/-- The two points of a parse at which hooks run. -/
inductive Stage
  | beforeParse
  | afterParse
  deriving DecidableEq, Inhabited, Repr

def Stage.name : Stage → String
  | .beforeParse => "before_parse"
  | .afterParse => "after_parse"

/-- The parses that a hook takes part in. -/
inductive Scope
  /-- Every parse of the hook's tree format. -/
  | any
  /-- The parses run by the parser. -/
  | parser (name : String)
  /-- The parses embedded directly by the parser. -/
  | parent (name : String)
  deriving DecidableEq, Inhabited, Repr

namespace Scope

/-- Whether a hook of this scope takes part in a parse. -/
def applies (scope : Scope) (context : Context) : Bool :=
  match scope with
  | .any => true
  | .parser name => context.parser = name
  | .parent name => context.parent = some name

/-- The failure of a hook that is restricted twice. -/
def overConstrained (own outer : String) : Fault :=
  .configuration ("Hook cannot require both parser \"" ++ own ++ "\" and parent parser \"" ++ outer ++ "\".")

/-- The scope of at most one constraint. -/
def ofConstraints : Option String → Option String → Except Fault Scope
  | some own, some outer => .error (overConstrained own outer)
  | some own, none => .ok (.parser own)
  | none, some outer => .ok (.parent outer)
  | none, none => .ok .any

def display : Scope → String
  | .any => "any"
  | .parser name => "parser=" ++ name
  | .parent name => "parent_parser=" ++ name

end Scope

end Polyglot
