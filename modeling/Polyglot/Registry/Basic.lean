import Polyglot.Plugin.Basic

/-!
# Registries

A registry is a list of plugins in the order of their registration. A parser or a
printer is looked up from the last plugin backwards, so that a later plugin
overrides an earlier one; the hooks of all plugins add up.
-/

namespace Polyglot

/-- Plugins in the order of their registration. -/
structure Registry (κ : Kit) where
  plugins : List (Plugin κ) := []

namespace Registry

variable {κ : Kit}

/-- The registry with one more plugin. -/
def add (registry : Registry κ) (plugin : Plugin κ) : Registry κ := ⟨registry.plugins ++ [plugin]⟩

/-- Adds a plugin and reports its place. -/
def register (registry : Registry κ) (plugin : Plugin κ) : Action κ.State (Registry κ) := do
  Action.report (.registering plugin.name registry.plugins.length)
  pure (registry.add plugin)

/-- Registers plugins in order. -/
def registerAll (registry : Registry κ) (plugins : List (Plugin κ)) : Action κ.State (Registry κ) :=
  plugins.foldlM register registry

/-- The names of the plugins in the order of their registration. -/
def names (registry : Registry κ) : List String := registry.plugins.map Plugin.name

/-- The names of all parsers in increasing order, each once. -/
def parserNames (registry : Registry κ) : List String :=
  (Table.ofEntries ((registry.plugins.flatMap Plugin.parserNames).map fun name => (name, ()))).keys

/-! ## Failures of a lookup -/

def parserNameRequired : Fault := .internal "parser name is required."

def treeFormatRequired : Fault := .internal "tree format is required."

def unknownParser (name : String) : Fault :=
  .configuration ("Couldn't resolve parser \"" ++ name ++ "\".")

def unknownTreeFormat (treeFormat : String) : Fault :=
  .configuration ("Couldn't find plugin for tree format \"" ++ treeFormat ++ "\".")

/-- A plugin that was found for a parser does not have it. -/
def lostParser (plugin name : String) : Fault :=
  .internal ("Plugin '" ++ plugin ++ "' lost parser \"" ++ name ++ "\"")

/-- A plugin that was found for a tree format has no printer for it. -/
def lostPrinter (plugin treeFormat : String) : Fault :=
  .internal ("Plugin '" ++ plugin ++ "' lost printer for \"" ++ treeFormat ++ "\"")

/-! ## Lookup -/

/-- The last plugin that satisfies `p`. -/
def last? (registry : Registry κ) (p : Plugin κ → Bool) : Option (Plugin κ) :=
  registry.plugins.reverse.find? p

/-- The plugin that a parser comes from. -/
def findParser (registry : Registry κ) (name : String) : Except Fault (Plugin κ) :=
  if name = "" then .error parserNameRequired
  else
    match registry.last? fun plugin => plugin.hasParser name with
    | some plugin => .ok plugin
    | none => .error (unknownParser name)

/-- The plugin that the printer of a tree format comes from. -/
def findPrinter (registry : Registry κ) (treeFormat : String) : Except Fault (Plugin κ) :=
  if treeFormat = "" then .error treeFormatRequired
  else
    match registry.last? fun plugin => plugin.hasPrinter treeFormat with
    | some plugin => .ok plugin
    | none => .error (unknownTreeFormat treeFormat)

@[simp] theorem plugins_add (registry : Registry κ) (plugin : Plugin κ) :
    (registry.add plugin).plugins = registry.plugins ++ [plugin] := rfl

theorem holds_of_last? {registry : Registry κ} {p : Plugin κ → Bool} {plugin : Plugin κ}
    (found : registry.last? p = some plugin) : p plugin :=
  List.find?_some found

theorem hasParser_of_findParser {registry : Registry κ} {name : String} {plugin : Plugin κ}
    (found : registry.findParser name = .ok plugin) : plugin.hasParser name := by
  unfold findParser at found
  split at found
  · simp at found
  · split at found
    · next search => simp only [Except.ok.injEq] at found; exact found ▸ holds_of_last? search
    · simp at found

theorem hasPrinter_of_findPrinter {registry : Registry κ} {treeFormat : String} {plugin : Plugin κ}
    (found : registry.findPrinter treeFormat = .ok plugin) : plugin.hasPrinter treeFormat := by
  unfold findPrinter at found
  split at found
  · simp at found
  · split at found
    · next search => simp only [Except.ok.injEq] at found; exact found ▸ holds_of_last? search
    · simp at found

end Registry

end Polyglot
