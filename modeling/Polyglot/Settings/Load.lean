import Polyglot.Fault
import Polyglot.Settings.Environment
import Polyglot.Settings.Files
import Polyglot.Settings.Place
import Polyglot.Settings.Reading
import Polyglot.Toml.Document

/-!
# Loading settings

Settings are had from one document, or from three sources of rising rank: the
default document, the document of the environment that the program runs in, and
the environment variables. Each key is decided by the source of the highest rank
that sets it, and has its default when none does.
-/

namespace Polyglot.Settings

/-- The keys that a document sets. -/
def sourceOf (origin : Option String) (text : String) : Except Failure (Table Setting) :=
  match Toml.read? text with
  | none => .error { problem := .malformed }
  | some table =>
    match Setting.ofEntries origin table with
    | .error problem => .error { problem, origin }
    | .ok entries => .ok entries

/-- What sources of rising rank say together. -/
def combine (sources : List (Table Setting)) : Setting := sources.foldl Setting.putAll Setting.empty

/-- The settings that sources of rising rank say together. -/
def ofSources (sources : List (Table Setting)) : Except Failure Settings := ofSetting (combine sources)

/-! ## One document -/

/-- The settings of one document. -/
def ofDocument (text : String) : Except Failure Settings := do
  ofSources [← sourceOf none text]

/-- A failure of a document is also the cause of the fault; the wording of what is
    no TOML belongs to the message alone. -/
def documentFault (failure : Failure) : Fault :=
  { Fault.configuration ("Configuration error: " ++ failure.message) with
    cause := if failure.isMalformed then none else some { problem := failure.message } }

/-- The settings of one document, or a fault. -/
def read (text : String) : Except Fault Settings := (ofDocument text).mapError documentFault

/-! ## Files and variables -/

/-- The keys that a document among the files sets; a missing document sets none. -/
def fileSource (files : Files) (name : String) : Except Failure (Table Setting) :=
  match document? files name with
  | none => .ok []
  | some (path, text) =>
    sourceOf (some path) (String.ofList (Toml.dropMark text.toList))

/-- The sources of rising rank for an environment. -/
def sources (files : Files) (environment : String) (assigned : Environment.Variables) :
    Except Failure (List (Table Setting)) := do
  let common ← fileSource files "default"
  let special ← fileSource files environment
  return [common, special, Environment.source assigned]

/-- The settings for an environment, or a fault of the sources or of their values. -/
def load (files : Files) (environment : String) (assigned : Environment.Variables) : Except Fault Settings :=
  match sources files environment assigned with
  | .error failure => .error (.configuration ("Failed to build config: " ++ failure.message))
  | .ok sources =>
    (ofSources sources).mapError fun failure =>
      .configuration ("Failed to deserialize config: " ++ failure.message)

theorem combine_append (first second : List (Table Setting)) :
    combine (first ++ second) = second.foldl Setting.putAll (combine first) := by
  simp [combine, List.foldl_append]

end Polyglot.Settings
