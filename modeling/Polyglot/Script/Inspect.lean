import Polyglot.Inspect
import Polyglot.Script.Build

/-!
# Inspecting scripts

The texts that show scripted capabilities: their data, and of their functions only
whether there are any.
-/

namespace Polyglot.Inspect

open Script

/-- A scripted hook that declares the stages that it has actions for. -/
def hook (hook : ScriptHook) : String :=
  record "ClosureHook" [
    ("name", Text.quoted hook.script.name),
    ("scope", scope hook.scope),
    ("before", option (fun _ => function) hook.script.before),
    ("after", option (fun _ => function) hook.script.after)]

def parser (script : ParserScript) : String :=
  record "ClosureParser" [
    ("tree_format", Text.quoted script.treeFormat),
    ("parse", function),
    ("preprocess", option (fun _ => function) script.preprocess)]

def printer (_ : PrintScript) : String := record "ClosurePrinter" [("print", function)]

end Polyglot.Inspect
