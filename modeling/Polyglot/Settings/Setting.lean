import Polyglot.Number.Numeral
import Polyglot.Settings.Problem
import Polyglot.Toml.Value

/-!
# Settings as given

The values that sources give, before they are read as the settings of the library.
Sources are merged table by table: what a later source says about a key replaces
what was known, and the other keys stay. A value remembers its source, except for
the tables that merging makes.
-/

namespace Polyglot

/-- A value of one piece. -/
inductive Scalar
  | bool (value : Bool)
  | integer (value : Int)
  | real (value : Binary64)
  | text (value : String)
  deriving DecidableEq, Inhabited

/-- What sources say about a key, and which source it was. -/
inductive Setting
  | unset
  | scalar (value : Scalar) (origin : Option String)
  | list (items : List Setting) (origin : Option String)
  | table (entries : List (String × Setting)) (origin : Option String)
  deriving Inhabited

namespace Setting

/-- The entries of a table; other values have none. -/
def entries : Setting → Table Setting
  | .table entries _ => entries
  | _ => []

/-- The source of a table; other values make way for a table without a source. -/
def tableOrigin : Setting → Option String
  | .table _ origin => origin
  | _ => none

/-- What is known about a key. -/
def member (setting : Setting) (key : String) : Setting := (setting.entries.lookup key).getD .unset

/-! ## Merging -/

mutual

/-- What is known after a later source: a table is merged key by key, and any
    other value replaces what was known. -/
def merge (known : Setting) : Setting → Setting
  | .table entries _ => .table (mergeEntries known.entries entries) known.tableOrigin
  | value => value

/-- The entries of a table after those of a later source. -/
def mergeEntries (known : Table Setting) : List (String × Setting) → Table Setting
  | [] => known
  | (key, value) :: rest =>
    mergeEntries (known.insert key (merge ((known.lookup key).getD .unset) value)) rest

end

/-- A value of one piece replaces what was known. -/
theorem merge_scalar (known : Setting) (value : Scalar) (origin : Option String) :
    known.merge (.scalar value origin) = .scalar value origin := by
  simp [merge]

/-! ## Values of documents -/

mutual

/-- The setting of a value in a document of the given source. -/
def ofValue (origin : Option String) : Toml.Value → Except Settings.Problem Setting
  | .bool value => .ok (.scalar (.bool value) origin)
  | .integer value =>
    if Numeral.fitsSigned value then .ok (.scalar (.integer value) origin)
    else .error (if value < 0 then .tooSmall else .tooLarge)
  | .real value => .ok (.scalar (.real value) origin)
  | .text value => .ok (.scalar (.text value) origin)
  | .moment value => .ok (.scalar (.text value.text) origin)
  | .list items => do return .list (← ofItems origin items) origin
  | .table _ entries => do return .table (← ofEntries origin entries) origin
  | .tables earlier last => do
    let tables ← ofTables origin earlier
    let final ← ofEntries origin last
    return .list (tables ++ [.table final origin]) origin

def ofItems (origin : Option String) : List Toml.Value → Except Settings.Problem (List Setting)
  | [] => .ok []
  | value :: rest => do
    let first ← ofValue origin value
    let more ← ofItems origin rest
    return first :: more

def ofEntries (origin : Option String) : List (String × Toml.Value) → Except Settings.Problem (Table Setting)
  | [] => .ok []
  | (key, value) :: rest => do
    let first ← ofValue origin value
    let more ← ofEntries origin rest
    return (key, first) :: more

def ofTables (origin : Option String) :
    List (List (String × Toml.Value)) → Except Settings.Problem (List Setting)
  | [] => .ok []
  | entries :: rest => do
    let first ← ofEntries origin entries
    let more ← ofTables origin rest
    return .table first origin :: more

end

end Setting

end Polyglot
