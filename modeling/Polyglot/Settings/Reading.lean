import Polyglot.Settings.Basic
import Polyglot.Settings.Setting

/-!
# Reading settings

The library's settings from what the sources say. A scalar of one kind is read as
one of another where it can stand for it: a word may be given as a number, a truth
value or a text, and a text as any scalar. A section is a table, or a list of its
fields in order; what it does not name keeps its default.
-/

namespace Polyglot

namespace Scalar

open Settings

def found : Scalar → Found
  | .bool value => .bool value
  | .integer value => .integer value
  | .real value => .real value
  | .text value => .text value

/-- The word that a text stands for: a truth value in words, or a numeral. -/
def wordOfText (text : String) : Except Problem UInt64 :=
  let lower := String.ofList (text.toList.map Char.toLower)
  if lower = "true" || lower = "on" || lower = "yes" then .ok 1
  else if lower = "false" || lower = "off" || lower = "no" then .ok 0
  else
    match Numeral.word? text.toList with
    | some word => .ok word
    | none => .error (.mismatch (.text text) "an integer")

/-- A scalar as a word. -/
def word : Scalar → Except Problem UInt64
  | .bool value => .ok (if value then 1 else 0)
  | .integer value => if value < 0 then .error (.negative value) else .ok (.ofNat value.toNat)
  | .real value => .ok value.toWord
  | .text value => wordOfText value

/-- A scalar as a text. -/
def spelled : Scalar → String
  | .bool value => if value then "true" else "false"
  | .integer value => toString value
  | .real value => Layout.plain.text value
  | .text value => value

end Scalar

namespace Setting

open Settings

def found : Setting → Found
  | .unset => .nothing
  | .scalar value _ => value.found
  | .list _ _ => .list
  | .table _ _ => .table

def origin : Setting → Option String
  | .unset => none
  | .scalar _ origin => origin
  | .list _ origin => origin
  | .table _ origin => origin

/-- A setting as a word. -/
def word : Setting → Except Problem UInt64
  | .scalar value _ => value.word
  | other => .error (.mismatch other.found "an integer")

/-- A setting as a text. -/
def spelled : Setting → Except Problem String
  | .scalar value _ => .ok value.spelled
  | other => .error (.mismatch other.found "a string")

/-- Reads a field, whose key a problem names. -/
def field {α : Type} (setting : Setting) (key : String) (read : Setting → Except Problem α) : Except Failure α :=
  match read setting with
  | .ok value => .ok value
  | .error problem => .error ⟨problem, some key, setting.origin⟩

end Setting

namespace Settings

/-- A field of a section: its name, how it is read, and what it is when nobody says. -/
structure Field (α : Type) where
  name : String
  read : Setting → Except Problem α
  fallback : α

namespace Field

variable {α : Type}

/-- Reads a field from the entries of the section with the given key. -/
def named (field : Field α) (key : String) (entries : Table Setting) : Except Failure α :=
  match entries.lookup field.name with
  | none => .ok field.fallback
  | some setting => setting.field (key ++ "." ++ field.name) field.read

/-- Reads a field from the items of the section with the given key. -/
def positioned (field : Field α) (key : String) (index : Nat) (items : List Setting) : Except Failure α :=
  match items[index]? with
  | none => .ok field.fallback
  | some setting => setting.field (key ++ "[" ++ toString index ++ "]") field.read

end Field

/-- Reads two fields from a section, the fields of a table in the order of their names.
    `title` is what a problem says was expected instead of a value that is no section. -/
def section? {α β : Type} (key title : String) (first : Field α) (second : Field β) :
    Setting → Except Failure (α × β)
  | .table entries _ =>
    if first.name < second.name then do
      let a ← first.named key entries
      let b ← second.named key entries
      return (a, b)
    else do
      let b ← second.named key entries
      let a ← first.named key entries
      return (a, b)
  | .list items _ => do
    let a ← first.positioned key 0 items
    let b ← second.positioned key 1 items
    return (a, b)
  | other => .error ⟨.mismatch other.found title, some key, none⟩

/-! ## The sections -/

def linesAbove : Field UInt64 := ⟨"lines_above", Setting.word, ({} : FrameSettings).linesAbove⟩
def linesBelow : Field UInt64 := ⟨"lines_below", Setting.word, ({} : FrameSettings).linesBelow⟩
def level : Field String := ⟨"level", Setting.spelled, ({} : LogSettings).level⟩
def format : Field String := ⟨"format", Setting.spelled, ({} : LogSettings).format⟩

/-- The section of frames; it may be absent. -/
def frameOf (root : Table Setting) : Except Failure FrameSettings :=
  match root.lookup "code_frame" with
  | none => .ok {}
  | some setting =>
    (section? "code_frame" "struct CodeFrameConfig" linesAbove linesBelow setting).map
      fun (above, below) => ⟨above, below⟩

/-- The section of logging; it may be absent. -/
def logOf (root : Table Setting) : Except Failure LogSettings :=
  match root.lookup "logging" with
  | none => .ok {}
  | some setting =>
    (section? "logging" "struct LoggingConfig" level format setting).map
      fun (level, format) => ⟨level, format⟩

/-- The settings that a root table says. -/
def ofSetting (root : Setting) : Except Failure Settings := do
  let frame ← frameOf root.entries
  let log ← logOf root.entries
  return ⟨frame, log⟩

end Settings

end Polyglot
