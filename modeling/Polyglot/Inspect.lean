import Polyglot.Pipeline
import Polyglot.Text.Quoted

/-!
# Inspection

The texts that show values to a programmer: records with the names of their fields,
constructors with their arguments, lists and tables. What cannot be shown, such as a
function, is named between angle brackets.
-/

namespace Polyglot.Inspect

/-! ## Shapes -/

/-- A text between braces. -/
def braced (text : String) : String := "\x7b" ++ text ++ "\x7d"

/-- A record with the texts of its fields. -/
def record (name : String) (fields : List (String × String)) : String :=
  name ++ " " ++ braced (" " ++ ", ".intercalate (fields.map fun (field, text) => field ++ ": " ++ text) ++ " ")

/-- A constructor with the text of its argument. -/
def applied (name argument : String) : String := name ++ "(" ++ argument ++ ")"

def option {α : Type} (text : α → String) : Option α → String
  | none => "None"
  | some value => applied "Some" (text value)

def list {α : Type} (text : α → String) (items : List α) : String :=
  "[" ++ ", ".intercalate (items.map text) ++ "]"

def table {α : Type} (text : α → String) (entries : Table α) : String :=
  braced (", ".intercalate (entries.map fun (key, value) => Text.quoted key ++ ": " ++ text value))

/-- A function, of which only the presence is shown. -/
def function : String := Text.quoted "<closure>"

/-! ## Values -/

def position (position : Position) : String :=
  record "Position" [("line", toString position.line), ("column", toString position.column)]

def location (location : Location) : String :=
  record "SourceLocation" [("start", position location.start), ("end", option position location.stop)]

def scope : Scope → String
  | .any => "Any"
  | .parser name => applied "Parser" (Text.quoted name)
  | .parent name => applied "ParentParser" (Text.quoted name)

/-- A cause without a place shows the line and the column zero. -/
def cause (cause : Cause) : String :=
  let (line, column) := cause.place.getD (0, 0)
  applied "Error" (Text.quoted cause.problem ++ ", line: " ++ toString line ++ ", column: " ++ toString column)

def fault (fault : Fault) : String :=
  record "AppError" [
    ("kind", fault.kind.name),
    ("message", Text.quoted fault.message),
    ("location", option location fault.location),
    ("code_frame", option Text.quoted fault.frame),
    ("source", option cause fault.cause)]

def deferred {σ α : Type} : Deferred σ α → String
  | .eager _ => "Deferred::Eager(..)"
  | .lazy _ => "Deferred::Lazy(<factory>)"

def plugin {κ : Kit} (plugin : Plugin κ) : String :=
  record "Plugin" [
    ("name", Text.quoted plugin.name),
    ("parsers", table deferred plugin.parsers),
    ("printers", table deferred plugin.printers),
    ("hooks", table deferred plugin.hooks)]

def registry {κ : Kit} (registry : Registry κ) : String :=
  record "PluginRegistry" [("plugins", list plugin registry.plugins)]

def frameSettings (settings : FrameSettings) : String :=
  record "CodeFrameConfig" [
    ("lines_above", toString settings.linesAbove),
    ("lines_below", toString settings.linesBelow)]

def pipeline (pipeline : Pipeline) : String :=
  record "ParsePipeline" [("code_frame", frameSettings pipeline.frame)]

example : scope (.parent "y") = "ParentParser(\"y\")" := by decide +kernel
example : table deferred ([("x", .eager 1)] : Table (Deferred Nat Nat)) =
    "\x7b\"x\": Deferred::Eager(..)\x7d" := by decide +kernel

end Polyglot.Inspect
