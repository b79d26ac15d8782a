import Polyglot.Deferred
import Polyglot.Table

/-!
# Plugins

A plugin is a named bundle of capabilities: parsers by the name of their language,
printers and hooks by the tree format that they work on. It is put together from
declarations: a later parser or printer takes the place of an earlier one of the
same name, while hooks add up.
-/

namespace Polyglot

/-- The kinds of capabilities that plugins bundle, and what those keep. -/
structure Kit where
  /-- What capabilities keep between calls. -/
  State : Type
  Parser : Type
  Printer : Type
  Hook : Type

/-- One capability of a plugin. -/
inductive Declaration (κ : Kit)
  | parser (name : String) (parser : κ.Parser)
  | lazyParser (name : String) (factory : Factory κ.State κ.Parser)
  | printer (treeFormat : String) (printer : κ.Printer)
  | lazyPrinter (treeFormat : String) (factory : Factory κ.State κ.Printer)
  | hook (treeFormat : String) (hook : κ.Hook)
  | lazyHooks (treeFormat : String) (factory : Factory κ.State (List κ.Hook))

/-- A bundle of capabilities. -/
structure Plugin (κ : Kit) where
  name : String
  parsers : Table (Deferred κ.State κ.Parser) := []
  printers : Table (Deferred κ.State κ.Printer) := []
  hooks : Table (Deferred κ.State (List κ.Hook)) := []

namespace Plugin

variable {κ : Kit}

/-- The plugin with one more parser, in place of one of the same name. -/
def setParser (plugin : Plugin κ) (name : String) (parser : Deferred κ.State κ.Parser) : Plugin κ :=
  { plugin with parsers := plugin.parsers.insert name parser }

/-- The plugin with one more printer, in place of one of the same tree format. -/
def setPrinter (plugin : Plugin κ) (treeFormat : String) (printer : Deferred κ.State κ.Printer) : Plugin κ :=
  { plugin with printers := plugin.printers.insert treeFormat printer }

/-- The plugin with more hooks, after those that it has for the tree format. -/
def addHooks (plugin : Plugin κ) (treeFormat : String) (tail : Deferred κ.State (List κ.Hook)) : Plugin κ :=
  let all := match plugin.hooks.lookup treeFormat with
    | none => tail
    | some head => head.append tail
  { plugin with hooks := plugin.hooks.insert treeFormat all }

/-- The plugin with one more capability. -/
def declare (plugin : Plugin κ) : Declaration κ → Plugin κ
  | .parser name parser => plugin.setParser name (.eager parser)
  | .lazyParser name factory => plugin.setParser name (.lazy factory.run)
  | .printer treeFormat printer => plugin.setPrinter treeFormat (.eager printer)
  | .lazyPrinter treeFormat factory => plugin.setPrinter treeFormat (.lazy factory.run)
  | .hook treeFormat hook => plugin.addHooks treeFormat (.eager [hook])
  | .lazyHooks treeFormat factory => plugin.addHooks treeFormat (.lazy factory.run)

/-- The plugin of the given capabilities, declared in order. -/
def ofDeclarations (name : String) (declarations : List (Declaration κ)) : Plugin κ :=
  declarations.foldl declare { name }

def parser? (plugin : Plugin κ) (name : String) : Option (Deferred κ.State κ.Parser) :=
  plugin.parsers.lookup name

def hasParser (plugin : Plugin κ) (name : String) : Bool := (plugin.parser? name).isSome

def printer? (plugin : Plugin κ) (treeFormat : String) : Option (Deferred κ.State κ.Printer) :=
  plugin.printers.lookup treeFormat

def hasPrinter (plugin : Plugin κ) (treeFormat : String) : Bool := (plugin.printer? treeFormat).isSome

def hooks? (plugin : Plugin κ) (treeFormat : String) : Option (Deferred κ.State (List κ.Hook)) :=
  plugin.hooks.lookup treeFormat

/-- The names of the parsers, in increasing order. -/
def parserNames (plugin : Plugin κ) : List String := plugin.parsers.keys

/-! ## What each declaration changes -/

theorem parser?_setParser (plugin : Plugin κ) (name other : String) (parser : Deferred κ.State κ.Parser) :
    (plugin.setParser name parser).parser? other = if other = name then some parser else plugin.parser? other :=
  Table.lookup_insert name other parser plugin.parsers

theorem printer?_setPrinter (plugin : Plugin κ) (treeFormat other : String)
    (printer : Deferred κ.State κ.Printer) :
    (plugin.setPrinter treeFormat printer).printer? other =
      if other = treeFormat then some printer else plugin.printer? other :=
  Table.lookup_insert treeFormat other printer plugin.printers

theorem hooks?_addHooks_self (plugin : Plugin κ) (treeFormat : String) (tail : Deferred κ.State (List κ.Hook)) :
    (plugin.addHooks treeFormat tail).hooks? treeFormat =
      some ((plugin.hooks? treeFormat).elim tail fun head => head.append tail) := by
  simp only [hooks?, addHooks, Table.lookup_insert_self]
  cases plugin.hooks.lookup treeFormat <;> rfl

theorem hooks?_addHooks_of_ne (plugin : Plugin κ) {treeFormat other : String} (different : other ≠ treeFormat)
    (tail : Deferred κ.State (List κ.Hook)) :
    (plugin.addHooks treeFormat tail).hooks? other = plugin.hooks? other := by
  simp only [hooks?, addHooks, Table.lookup_insert_of_ne different]

theorem mem_parserNames_iff (plugin : Plugin κ) (name : String) :
    name ∈ plugin.parserNames ↔ plugin.hasParser name :=
  Table.mem_keys_iff name plugin.parsers

end Plugin

end Polyglot
