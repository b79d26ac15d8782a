import Polyglot.Session.Basic

/-!
# The steps of a session

What can be asked of a session: registering plugins, looking capabilities up,
calling them one by one, filling slots, and running parses.
-/

namespace Polyglot.Session

open Script (PluginScript OptionAction ScriptHook ScriptParser ScriptPrinter)

/-! ## The registry -/

/-- The failure of a step that names a place where nothing is. -/
def nothingThere : Fault := .internal "nothing is registered at this index."

/-- Registers a plugin; the answer is how many there are now. -/
def addPlugin (plugin : Plugin Script.kit) : Step Nat := do
  let registry ← act ((← get).registry.register plugin)
  modify fun session => { session with registry }
  pure registry.plugins.length

/-- Builds a plugin and registers it. -/
def register (script : PluginScript) : Step Nat := do
  let plugin ← act (Action.ofState script.build)
  addPlugin plugin

/-- The plugin at an index of the registry. -/
def pluginAt (index : Nat) : Step (Plugin Script.kit) := do
  match (← get).registry.plugins[index]? with
  | some plugin => pure plugin
  | none => throw nothingThere

/-- Registers a plugin of the registry once more. -/
def registerAgain (index : Nat) : Step Nat := do
  let plugin ← pluginAt index
  addPlugin plugin

/-- What a plugin has under a name and for a tree format. -/
structure Holdings where
  /-- Whether the parser is lazy, if there is one. -/
  parser : Option Bool
  /-- Whether the printer is lazy, if there is one. -/
  printer : Option Bool
  /-- Whether the hooks are lazy, and the hooks themselves, if there are any declared. -/
  hooks : Option (Bool × List ScriptHook)

/-- Looks into a plugin; its hooks are resolved. -/
def inspect (index : Nat) (name treeFormat : String) : Step Holdings := do
  let plugin ← pluginAt index
  let hooks ← match plugin.hooks? treeFormat with
    | none => pure none
    | some deferred =>
      let hooks ← act deferred.resolve
      pure (some (deferred.isLazy, hooks))
  pure {
    parser := (plugin.parser? name).map Deferred.isLazy
    printer := (plugin.printer? treeFormat).map Deferred.isLazy
    hooks }

/-- The name of the plugin that a parser comes from. -/
def findParser (name : String) : Step String := do
  let plugin ← look fun registry => registry.findParser name
  pure plugin.name

/-- The name of the plugin that the printer of a tree format comes from. -/
def findPrinter (treeFormat : String) : Step String := do
  let plugin ← look fun registry => registry.findPrinter treeFormat
  pure plugin.name

def resolveParser (name : String) : Step ScriptParser := do
  act ((← get).registry.resolveParser Script.profile name)

def resolvePrinter (treeFormat : String) : Step ScriptPrinter := do
  act ((← get).registry.resolvePrinter treeFormat)

def resolveHooks (treeFormat : String) : Step (List ScriptHook) := do
  act ((← get).registry.resolveHooks treeFormat)

/-- Which hooks of a tree format take part in a parse in a context. -/
def applies (treeFormat : String) (context : Context) : Step (List Bool) := do
  let hooks ← resolveHooks treeFormat
  pure (hooks.map fun hook => hook.scope.applies context)

/-! ## Calls -/

/-- Preprocesses and parses a text, without hooks. -/
def callParser (slot name text : String) : Step Parsed := do
  let parser ← resolveParser name
  within slot do
    let text ← Run.ofAction (Script.capabilities.preprocess parser text)
    let tree ← Run.ofAction (Script.capabilities.parse parser text)
    pure ⟨text, tree⟩

/-- Prints a tree. -/
def callPrinter (slot treeFormat : String) (tree : Tree) : Step String := do
  let printer ← resolvePrinter treeFormat
  within slot (Run.ofAction (Script.capabilities.print printer tree))

/-- Calls both stages of a hook, whatever it declares. -/
def callHook (slot treeFormat : String) (index : Nat) (text : String) (tree : Tree) : Step (String × Edit) := do
  let hooks ← resolveHooks treeFormat
  match hooks[index]? with
  | none => throw nothingThere
  | some hook =>
    within slot do
      let text ← Script.capabilities.beforeParse hook text
      let edit ← Script.capabilities.afterParse hook tree
      pure (text, edit)

/-- Hands a text and a tree through the hooks that are selected in a context; the
    answer begins with how many these are. -/
def dispatch (slot treeFormat : String) (context : Context) (text : String) (tree : Tree) :
    Step (Nat × Parsed) := do
  let resolved ← resolveHooks treeFormat
  within slot do
    let hooks ← Run.ofAction fun _ => Dispatch.select Script.profile context resolved
    let text ← Dispatch.beforeParse Script.capabilities hooks text
    let tree ← Dispatch.afterParse Script.capabilities hooks tree
    pure (hooks.length, ⟨text, tree⟩)

/-! ## Slots -/

/-- Fills a slot with fresh options. -/
def setOptions (slot parser : String) (settings : Table Json) : Step Unit := do
  setSlot slot { Options.new (← get).registry parser with settings }

/-- Fills a slot with the options of a document embedded in that of another slot. -/
def embed (slot source parser : String) : Step Unit := do
  let options ← slotOptions source
  setSlot slot (options.embedded parser)

/-- Fills a slot with the options of another one. -/
def copy (slot source : String) : Step Unit := do
  let options ← slotOptions source
  setSlot slot options

/-- Takes actions on the options in a slot. -/
def mutate (slot : String) (actions : List (OptionAction PluginScript)) : Step Unit :=
  within slot (actions.forM OptionAction.run)

/-! ## Parses -/

/-- Fills a slot with fresh options for a parser, if one is given. -/
def renew (slot : String) (parser : Option String) : Step Unit :=
  match parser with
  | none => pure ()
  | some parser => setOptions slot parser []

/-- Parses a text on the options in a slot. -/
def parse (slot : String) (parser : Option String) (text : String) : Step Parsed := do
  renew slot parser
  within slot ((← get).pipeline.parse Script.capabilities text)

/-- Parses a text on the options in a slot and prints the tree. -/
def format (slot : String) (parser : Option String) (text : String) : Step String := do
  renew slot parser
  within slot ((← get).pipeline.format Script.capabilities text)

end Polyglot.Session
