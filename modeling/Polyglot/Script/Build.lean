import Polyglot.Language.Basic
import Polyglot.Script.Basic
import Polyglot.Script.Journal

/-!
# Building scripted plugins

A script becomes a plugin: each lazy part is given a factory with a number of its
own, which enters its runs in the journal and fails as its script says. A hook
without a scope is a failure of the build, for a lazy part of its factory.
-/

namespace Polyglot.Script

/-- A parser: a built-in language, or a script under the label of its plugin and name. -/
inductive ScriptParser
  | language (language : Language)
  | scripted (label : String) (script : ParserScript)

/-- A printer: of a built-in tree format, or a script. -/
inductive ScriptPrinter
  | language (treeFormat : TreeFormat)
  | scripted (treeFormat : String) (script : PrintScript)

/-- A hook of a script with its scope. -/
structure ScriptHook where
  script : HookScript PluginScript
  scope : Scope

/-- The kit of scripted plugins. -/
def kit : Kit := ⟨Journal, ScriptParser, ScriptPrinter, ScriptHook⟩

/-- A step that may change the journal and may fail. -/
abbrev Build (α : Type) := EStateM Fault Journal α

/-- Enters a call in the journal. -/
def record (entry : Entry) : Build Unit := modify fun journal => journal.add entry

/-- Fails while a factory did not run often enough. -/
def Failing.check (failing : Option Failing) (earlier : Nat) : Build Unit :=
  match failing with
  | none => pure ()
  | some ⟨fault, none⟩ => throw fault
  | some ⟨fault, some times⟩ => if earlier < times then throw fault else pure ()

/-- A factory with a number of its own. -/
def newFactory {α : Type} (part subject : String) (failing : Option Failing) (build : Build α) :
    Build (Factory Journal α) := do
  let id := (← get).nextFactory
  modify Journal.takeFactory
  pure ⟨id, fun earlier => do
    record (.factory part subject)
    Failing.check failing earlier
    build⟩

/-- A hook with its scope, if it has one. -/
def HookScript.build (script : HookScript PluginScript) : Build ScriptHook :=
  match script.scope with
  | .ok scope => pure ⟨script, scope⟩
  | .error fault => throw fault

/-- The declaration of a part of a plugin. -/
def Part.build (plugin : String) : Part PluginScript → Build (Declaration kit)
  | .parser name script => pure (.parser name (.scripted (plugin ++ "/" ++ name) script))
  | .lazyParser name failing script => do
    let factory ← newFactory "lazy_parser" name failing
      (pure (ScriptParser.scripted (plugin ++ "/" ++ name) script))
    pure (.lazyParser name factory)
  | .printer treeFormat script => pure (.printer treeFormat (.scripted treeFormat script))
  | .lazyPrinter treeFormat failing script => do
    let factory ← newFactory "lazy_printer" treeFormat failing (pure (ScriptPrinter.scripted treeFormat script))
    pure (.lazyPrinter treeFormat factory)
  | .hook treeFormat script => do
    let hook ← script.build
    pure (.hook treeFormat hook)
  | .lazyHooks treeFormat failing scripts => do
    let factory ← newFactory "lazy_hooks" treeFormat failing (scripts.mapM HookScript.build)
    pure (.lazyHooks treeFormat factory)

/-- The plugin of the built-in languages. -/
def languages : Plugin kit :=
  .ofDeclarations "languages" [
    .parser Language.declaration.parserName (.language .declaration),
    .parser Language.expression.parserName (.language .expression),
    .printer TreeFormat.estree.name (.language .estree),
    .parser Language.template.parserName (.language .template),
    .printer TreeFormat.vue.name (.language .vue),
    .parser Language.prose.parserName (.language .prose),
    .printer TreeFormat.mdast.name (.language .mdast)]

/-- The plugin of a script. -/
def PluginScript.build : PluginScript → Build (Plugin kit)
  | .languages => pure Script.languages
  | .scripted name parts => do
    let declarations ← parts.mapM (Part.build name)
    pure (.ofDeclarations name declarations)

end Polyglot.Script
