import Polyglot.Capabilities

/-!
# Resolving capabilities

A name becomes a capability: the plugin that has it is found, and what that plugin
holds is resolved and reported. A lazy capability is built anew each time.
-/

namespace Polyglot.Registry

variable {κ : Kit}

/-- The parser of a name. -/
def resolveParser (registry : Registry κ) (profile : Profile κ) (name : String) :
    Action κ.State κ.Parser := do
  let plugin ← Action.ofExcept (registry.findParser name)
  match plugin.parser? name with
  | none => throw (lostParser plugin.name name)
  | some deferred =>
    let parser ← deferred.resolve
    Action.report (.resolvedParser name plugin.name (profile.treeFormat parser) deferred.isLazy)
    pure parser

/-- The printer of a tree format. -/
def resolvePrinter (registry : Registry κ) (treeFormat : String) : Action κ.State κ.Printer := do
  let plugin ← Action.ofExcept (registry.findPrinter treeFormat)
  match plugin.printer? treeFormat with
  | none => throw (lostPrinter plugin.name treeFormat)
  | some deferred =>
    let printer ← deferred.resolve
    Action.report (.resolvedPrinter treeFormat plugin.name deferred.isLazy)
    pure printer

/-- The hooks that a plugin has for a tree format. -/
def ownHooks (treeFormat : String) (plugin : Plugin κ) : Action κ.State (List κ.Hook) :=
  match plugin.hooks? treeFormat with
  | none => pure []
  | some deferred => deferred.resolve

/-- The hooks of a tree format, plugin by plugin. -/
def resolveHooks (registry : Registry κ) (treeFormat : String) : Action κ.State (List κ.Hook) := do
  if treeFormat = "" then throw treeFormatRequired
  let lists ← registry.plugins.mapM (ownHooks treeFormat)
  let hooks := lists.flatten
  Action.report (.resolvedHooks treeFormat hooks.length)
  pure hooks

end Polyglot.Registry
