import Polyglot.Json.Basic
import Polyglot.Scope

/-!
# Events

What a run reports of itself, in the order of its steps: plugins that are
registered, capabilities that are resolved, hooks that are skipped or run, and how
a parse ends. `Event.level`, `Event.message` and `Event.fields` say how an event is
written down.
-/

namespace Polyglot

/-- How important an event is. -/
inductive Level
  | debug
  | info
  | warn
  deriving DecidableEq, Inhabited, Repr

def Level.name : Level → String
  | .debug => "DEBUG"
  | .info => "INFO"
  | .warn => "WARN"

/-- A step that a run reports. -/
inductive Event
  /-- A plugin takes its place, counted from zero, in a registry. -/
  | registering (plugin : String) (position : Nat)
  | resolvedParser (parser plugin treeFormat : String) (isLazy : Bool)
  | resolvedPrinter (treeFormat plugin : String) (isLazy : Bool)
  | resolvedHooks (treeFormat : String) (count : Nat)
  /-- A hook takes no part in the parse that is about to run. -/
  | skipped (hook : String) (scope : Scope) (parser : String)
  /-- So many of the resolved hooks take part. -/
  | selected (parser : String) (applicable total : Nat)
  | running (hook : String) (stage : Stage)
  | replaced (hook : String)
  | failed (treeFormat : String) (kind : FaultKind) (located : Bool)
  | complete (treeFormat : String) (hooks : Nat)
  /-- A parse begins in a context; what follows belongs to it. -/
  | entered (context : Context)
  deriving DecidableEq, Inhabited, Repr

namespace Event

def level : Event → Level
  | .registering .. => .info
  | .failed .. => .warn
  | .entered .. => .info
  | _ => .debug

def message : Event → String
  | .registering .. => "Registering plugin"
  | .resolvedParser .. => "Resolved parser"
  | .resolvedPrinter .. => "Resolved printer"
  | .resolvedHooks .. => "Resolved hooks"
  | .skipped .. => "Hook out of scope, skipping"
  | .selected .. => "Hooks selected"
  | .running .. => "Running hook"
  | .replaced .. => "Hook replaced tree"
  | .failed .. => "Parse failed"
  | .complete .. => "Parse complete"
  | .entered .. => "parse"

def fields : Event → Table Json
  | .registering plugin position => .ofEntries [("plugin", .text plugin), ("position", .count position)]
  | .resolvedParser parser plugin treeFormat isLazy =>
    .ofEntries [("parser", .text parser), ("plugin", .text plugin), ("tree_format", .text treeFormat),
      ("lazy", .bool isLazy)]
  | .resolvedPrinter treeFormat plugin isLazy =>
    .ofEntries [("tree_format", .text treeFormat), ("plugin", .text plugin), ("lazy", .bool isLazy)]
  | .resolvedHooks treeFormat count => .ofEntries [("tree_format", .text treeFormat), ("hook_count", .count count)]
  | .skipped hook scope parser =>
    .ofEntries [("hook", .text hook), ("scope", .text scope.display), ("parser", .text parser)]
  | .selected parser applicable total =>
    .ofEntries [("parser", .text parser), ("applicable", .count applicable), ("total", .count total)]
  | .running hook stage => .ofEntries [("hook", .text hook), ("stage", .text stage.name)]
  | .replaced hook => .ofEntries [("hook", .text hook)]
  | .failed treeFormat kind located =>
    .ofEntries [("tree_format", .text treeFormat), ("kind", .text kind.title), ("located", .bool located)]
  | .complete treeFormat hooks => .ofEntries [("tree_format", .text treeFormat), ("hooks", .count hooks)]
  | .entered context =>
    .ofEntries [("parser", .text context.parser), ("parent_parser", .text (context.parent.getD ""))]

end Event

end Polyglot
