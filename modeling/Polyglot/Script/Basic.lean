import Polyglot.Capabilities

/-!
# Scripts

Plugins described by data: what a scripted parser makes of a text, which actions a
scripted hook takes on a text, a tree and the options, and how a factory fails. The
types of hooks and parts leave open what a plugin is, since an action may register
one; `PluginScript` closes the circle.
-/

namespace Polyglot.Script

/-- What a parser makes of a text. -/
inductive ParseScript
  /-- An object with the text under a key. -/
  | echo (key : String)
  | const (tree : Tree)
  | fail (fault : Fault)
  /-- The text and a description of the options. -/
  | state
  /-- A failure at the first occurrence of `needle`, of a point or of the range that it covers. -/
  | reject (needle message : String) (range : Bool)
  /-- What stands after the first separator is a document of another parser. -/
  | embed (separator parser : String) (frame : Except Fault FrameSettings)

/-- What a printer makes of a tree. -/
inductive PrintScript
  | json
  /-- The text that a pointer names. -/
  | at (pointer : String)
  /-- The committed text. -/
  | committed
  /-- A description of the options. -/
  | state
  | fail (fault : Fault)
  /-- What the printer of another tree format makes of the subtree that a pointer names. -/
  | delegate (treeFormat pointer : String)

/-- An action on a text. -/
inductive TextAction
  | append (text : String)
  | prepend (text : String)
  | upper
  | replace (word replacement : String)
  | set (text : String)
  | trimEnd
  | appendSetting (key : String)
  | appendState
  | fail (fault : Fault)
  | failIf (needle : String) (fault : Fault)

/-- An action on a tree. -/
inductive TreeAction
  | setKey (key : String) (value : Json)
  | setState (key : String)
  | setCommitted (key : String)
  | eraseKey (key : String)
  | set (pointer : String) (value : Json)
  | appendAt (pointer text : String)
  /-- Puts the tree under a key and leaves null. -/
  | wrap (key : String)
  /-- Leaves null. -/
  | take
  | return (tree : Tree)
  | fail (fault : Fault)
  | failIfKey (key : String) (fault : Fault)

/-- An action on the options; `π` is what describes a plugin. -/
inductive OptionAction (π : Type)
  | setSetting (key : String) (value : Json)
  | eraseSetting (key : String)
  | setParser (name : String)
  | setParent (name : Option String)
  | setCommitted (text : Option String)
  | appendCommitted (text : String)
  | register (plugin : π)
  | clearPlugins

/-- An action of a hook: on what it is given, or on the options. -/
inductive HookAction (π α : Type)
  | own (action : α)
  | options (action : OptionAction π)

/-- A hook. Without actions for a stage it leaves what it is given alone, and its
    call is not on record. -/
structure HookScript (π : Type) where
  name : String
  /-- The scope, or why there is none. -/
  scope : Except Fault Scope := .ok .any
  declared : List Stage := []
  before : Option (List (HookAction π TextAction)) := none
  after : Option (List (HookAction π TreeAction)) := none

instance {π : Type} : Inhabited (HookScript π) := ⟨⟨"", .ok .any, [], none, none⟩⟩

namespace HookScript

variable {π : Type}

/-- A hook that declares just the stages that it has actions for. -/
def closure (name : String) (scope : Except Fault Scope) (before : Option (List (HookAction π TextAction)))
    (after : Option (List (HookAction π TreeAction))) : HookScript π :=
  { name, scope, before, after
    declared := (before.map fun _ => Stage.beforeParse).toList ++ (after.map fun _ => Stage.afterParse).toList }

/-- A hook that declares stages whatever its actions are. -/
def custom (name : String) (scope : Except Fault Scope) (declared : List Stage)
    (before : List (HookAction π TextAction)) (after : List (HookAction π TreeAction)) : HookScript π :=
  { name, scope, declared, before := some before, after := some after }

/-- A hook that declares both stages and does nothing. -/
def bare (name : String) : HookScript π := { name, declared := [.beforeParse, .afterParse] }

end HookScript

/-- How a factory fails: on its first runs, or on every one. -/
structure Failing where
  fault : Fault
  times : Option Nat := none

/-- A parser. -/
structure ParserScript where
  treeFormat : String
  parse : ParseScript
  /-- Without these actions the text is left alone, and the call is not on record. -/
  preprocess : Option (List TextAction) := none

/-- A capability of a plugin. -/
inductive Part (π : Type)
  | parser (name : String) (script : ParserScript)
  | lazyParser (name : String) (failing : Option Failing) (script : ParserScript)
  | printer (treeFormat : String) (script : PrintScript)
  | lazyPrinter (treeFormat : String) (failing : Option Failing) (script : PrintScript)
  | hook (treeFormat : String) (script : HookScript π)
  | lazyHooks (treeFormat : String) (failing : Option Failing) (scripts : List (HookScript π))

/-- A plugin: the built-in languages, or parts in the order of their declaration. -/
inductive PluginScript
  | languages
  | scripted (name : String) (parts : List (Part PluginScript))

instance : Inhabited PluginScript := ⟨.languages⟩

end Polyglot.Script
