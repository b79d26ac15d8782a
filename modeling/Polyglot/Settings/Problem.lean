import Polyglot.Number.Layout
import Polyglot.Text.Quoted

/-!
# Problems with settings

What can be wrong with the sources of settings: a document that is no TOML, an
integer that does not fit, or a value of another kind than the one expected. A
problem with a value names its key, and the source that the value came from.
-/

namespace Polyglot.Settings

/-- What stands where something else was expected. -/
inductive Found
  | nothing
  | bool (value : Bool)
  | integer (value : Int)
  | real (value : Binary64)
  | text (value : String)
  | list
  | table

inductive Problem
  /-- The document is not TOML. -/
  | malformed
  /-- An integer exceeds those of 64 bits. -/
  | tooLarge
  /-- An integer is less than those of 64 bits. -/
  | tooSmall
  /-- A count is below zero. -/
  | negative (value : Int)
  | mismatch (found : Found) (expected : String)

/-- A problem, the key that it is about, and the source of the value. -/
structure Failure where
  problem : Problem
  key : Option String := none
  origin : Option String := none

/-- A text between backquotes. -/
def marked (text : String) : String := "`" ++ text ++ "`"

def Found.describe : Found → String
  | .nothing => "unit value"
  | .bool value => "boolean " ++ marked (if value then "true" else "false")
  | .integer value => "integer " ++ marked (toString value)
  | .real value => "floating point " ++ marked (Layout.pointed.text value)
  | .text value => "string " ++ Text.quoted value
  | .list => "sequence"
  | .table => "map"

def Problem.message : Problem → String
  | .malformed => "TOML parse error"
  | .tooLarge => "number too large to fit in target type"
  | .tooSmall => "number too small to fit in target type"
  | .negative value =>
    "invalid type: 64-bit integer " ++ marked (toString value) ++
      ", expected an unsigned 64 bit or less integer"
  | .mismatch found expected => "invalid type: " ++ found.describe ++ ", expected " ++ expected

def Failure.message (failure : Failure) : String :=
  failure.problem.message ++ (failure.key.elim "" fun key => " for key " ++ marked key) ++
    failure.origin.elim "" fun origin => " in " ++ origin

/-- Whether a failure is that of a text that is no TOML. -/
def Failure.isMalformed (failure : Failure) : Bool :=
  match failure.problem with
  | .malformed => true
  | _ => false

end Polyglot.Settings
