import Polyglot.Json.Pointer
import Polyglot.Json.Printer
import Polyglot.Codec.Forms
import Polyglot.Script.Build

/-!
# What scripts do

The rules of scripted parsers, printers and hooks. Each call is entered in the
journal with what it was given, then its actions run in order; the first failure
ends the call, and what was done to the options before it stays.
-/

namespace Polyglot.Script

/-- A description of options. -/
def describe (options : Options kit) : Json :=
  .ofMembers [
    ("context", Context.codec.encode options.context),
    ("parser", .text options.context.parser),
    ("embedded", .bool options.context.isEmbedded),
    ("original", Codec.text.optional.encode options.committed),
    ("settings", .object options.settings),
    ("plugins", .list (options.registry.names.map .text))]

/-- A short description of a context and a committed text. -/
def mark (options : Options kit) : String :=
  "<" ++ options.context.parser ++ "," ++ options.context.parent.getD "-" ++ "," ++
    options.committed.getD "-" ++ ">"

/-- A setting as text: a text as it is, any other value as JSON. -/
def settingText (options : Options kit) (key : String) : String :=
  match options.settings.lookup key with
  | none => ""
  | some (.text value) => value
  | some value => value.print

/-! ## Actions -/

def TextAction.run (options : Options kit) (text : String) : TextAction → Except Fault String
  | .append more => .ok (text ++ more)
  | .prepend more => .ok (more ++ text)
  | .upper => .ok (text.map Char.toUpper)
  | .replace word replacement =>
    .ok (.ofList (Text.replaceAll word.toList replacement.toList text.toList))
  | .set other => .ok other
  | .trimEnd => .ok (.ofList (Text.dropEndWhile Text.isPlainBlank text.toList))
  | .appendSetting key => .ok (text ++ settingText options key)
  | .appendState => .ok (text ++ mark options)
  | .fail fault => .error fault
  | .failIf needle fault => if Text.contains needle.toList text.toList then .error fault else .ok text

/-- Appends to a text value. -/
def appendText (more : String) : Json → Json
  | .text value => .text (value ++ more)
  | other => other

def TreeAction.run (options : Options kit) (edit : Edit) : TreeAction → Except Fault Edit
  | .setKey key value => .ok { edit with tree := edit.tree.insert key value }
  | .setState key => .ok { edit with tree := edit.tree.insert key (describe options) }
  | .setCommitted key =>
    .ok { edit with tree := edit.tree.insert key (Codec.text.optional.encode options.committed) }
  | .eraseKey key => .ok { edit with tree := edit.tree.erase key }
  | .set pointer value => .ok { edit with tree := edit.tree.modifyPointer pointer fun _ => value }
  | .appendAt pointer more => .ok { edit with tree := edit.tree.modifyPointer pointer (appendText more) }
  | .wrap key => .ok ⟨.null, some (.singleton key edit.tree)⟩
  | .take => .ok { edit with tree := .null }
  | .return tree => .ok { edit with replacement := some tree }
  | .fail fault => .error fault
  | .failIfKey key fault => if (edit.tree.member? key).isSome then .error fault else .ok edit

/-- Registers a plugin in a registry. -/
def registerScript (registry : Registry kit) (script : PluginScript) : Action Journal (Registry kit) := do
  let plugin ← Action.ofState script.build
  registry.register plugin

def OptionAction.run : OptionAction PluginScript → Run kit Unit
  | .setSetting key value =>
    Run.modifyOptions fun options => { options with settings := options.settings.insert key value }
  | .eraseSetting key => Run.modifyOptions fun options => { options with settings := options.settings.erase key }
  | .setParser name =>
    Run.modifyOptions fun options => { options with context := { options.context with parser := name } }
  | .setParent name =>
    Run.modifyOptions fun options => { options with context := { options.context with parent := name } }
  | .setCommitted text => Run.modifyOptions fun options => { options with committed := text }
  | .appendCommitted more =>
    Run.modifyOptions fun options => { options with committed := options.committed.map (· ++ more) }
  | .register plugin => do
    let registry ← Run.ofAction fun options => registerScript options.registry plugin
    Run.modifyOptions fun options => { options with registry }
  | .clearPlugins => Run.modifyOptions fun options => { options with registry := {} }

/-- An action of a hook on what it is given, or on the options. -/
def HookAction.run {α β : Type} (act : Options kit → β → α → Except Fault β) (given : β) :
    HookAction PluginScript α → Run kit β
  | .own action => Run.ofAction fun options => Action.ofExcept (act options given action)
  | .options action => do
    action.run
    pure given

/-! ## Parsers and printers -/

/-- Enters a call in the journal. -/
def recordCall (entry : Entry) : Action Journal Unit := Action.ofState (record entry)

/-- The fault of a rejected text. -/
def rejection (message : String) (range : Bool) (before needle : List Char) : Fault :=
  let start := Position.after before
  (Fault.syntactic message).located
    (if range then .range start (.after (before ++ needle)) else .point start)

/-- Parses what stands after the first separator with another parser. -/
def parseAfter (inner : Capabilities kit) (separator parser : String) (frame : Except Fault FrameSettings)
    (text : String) (options : Options kit) : Action Journal Tree :=
  match Text.splitAtFirst separator.toList text.toList with
  | none => pure (.singleton "head" (.text text))
  | some (head, rest) => do
    let frame ← Action.ofExcept frame
    let (parsed, after) ← Pipeline.parseOn ⟨frame⟩ inner (.ofList rest) (options.embedded parser)
    pure (.ofMembers [
      ("head", .text (.ofList head)),
      ("text", .text parsed.text),
      ("child", parsed.tree),
      ("original", Codec.text.optional.encode after.committed),
      ("parent", Codec.text.optional.encode after.context.parent)])

def ParseScript.run (inner : Capabilities kit) (text : String) (options : Options kit) :
    ParseScript → Action Journal Tree
  | .echo key => pure (.singleton key (.text text))
  | .const tree => pure tree
  | .fail fault => throw fault
  | .state => pure (.ofMembers [("text", .text text), ("state", describe options)])
  | .reject needle message range =>
    match Text.splitAtFirst needle.toList text.toList with
    | none => pure (.singleton "text" (.text text))
    | some (before, _) => throw (rejection message range before needle.toList)
  | .embed separator parser frame => parseAfter inner separator parser frame text options

def PrintScript.run (inner : Capabilities kit) (tree : Tree) (options : Options kit) :
    PrintScript → Action Journal String
  | .json => pure tree.print
  | .at pointer => pure (((tree.pointer? pointer).bind Json.text?).getD "")
  | .committed => pure (options.committed.getD "")
  | .state => pure (describe options).print
  | .fail fault => throw fault
  | .delegate treeFormat pointer => do
    let output ← Pipeline.printOn inner treeFormat ((tree.pointer? pointer).getD .null) options
    pure ("[" ++ output ++ "]")

/-! ## The capabilities -/

/-- What is known of scripted capabilities without running them. -/
def profile : Profile kit where
  treeFormat
    | .language language => language.treeFormat.name
    | .scripted _ script => script.treeFormat
  hookName hook := hook.script.name
  hookScope hook := hook.scope
  declares hook stage := hook.script.declared.contains stage

def preprocess (parser : ScriptParser) (text : String) (options : Options kit) : Action Journal String :=
  match parser with
  | .language _ => pure text
  | .scripted label script =>
    match script.preprocess with
    | none => pure text
    | some actions => do
      recordCall (.preprocess label text)
      Action.ofExcept (actions.foldlM (TextAction.run options) text)

def parse (inner : Capabilities kit) (parser : ScriptParser) (text : String) (options : Options kit) :
    Action Journal Tree :=
  match parser with
  | .language language => language.parse inner text options
  | .scripted label script => do
    recordCall (.parse label text)
    script.parse.run inner text options

def print (inner : Capabilities kit) (printer : ScriptPrinter) (tree : Tree) (options : Options kit) :
    Action Journal String :=
  match printer with
  | .language treeFormat => Language.print inner treeFormat tree options
  | .scripted treeFormat script => do
    recordCall (.print treeFormat)
    script.run inner tree options

def beforeParse (hook : ScriptHook) (text : String) : Run kit String :=
  match hook.script.before with
  | none => pure text
  | some actions => do
    Run.ofAction fun _ => recordCall (.before hook.script.name text)
    actions.foldlM (HookAction.run TextAction.run) text

def afterParse (hook : ScriptHook) (tree : Tree) : Run kit Edit :=
  match hook.script.after with
  | none => pure { tree }
  | some actions => do
    Run.ofAction fun _ => recordCall (.after hook.script.name tree)
    actions.foldlM (HookAction.run TreeAction.run) { tree }

/-- The rules of scripted capabilities, given those for embedded documents. -/
def rules (inner : Capabilities kit) : Capabilities kit :=
  { profile with
    preprocess := preprocess
    parse := parse inner
    print := print inner
    beforeParse := beforeParse
    afterParse := afterParse }

/-- How deep documents may be embedded in each other. -/
def nestingLimit : Nat := 1024

/-- The capabilities of scripts. -/
def capabilities : Capabilities kit := .nest profile rules nestingLimit

end Polyglot.Script
