import Polyglot.Toml.Value

/-!
# Documents

A document is a list of statements: headers, which say what table the next keys
belong to, and keys with their values. The document's table is what the statements
put into it one after the other.
-/

namespace Polyglot.Toml

/-- A statement of a document. -/
inductive Statement
  /-- `[path]`: the keys that follow belong to this table. -/
  | header (path : List String)
  /-- `[[path]]`: the keys that follow belong to a further table of a list. -/
  | element (path : List String)
  /-- `path = value`. -/
  | entry (path : List String) (value : Value)

/-! ## Building the table -/

/-- Changes the table at the end of a path of header keys, making the tables on
    the way that are not there yet. -/
def within (change : Table Value → Option (Table Value)) : List String → Table Value → Option (Table Value)
  | [], table => change table
  | key :: path, table =>
    match table.lookup key with
    | none => (within change path []).map fun inner => table.insert key (.table .step inner)
    | some (.table form entries) =>
      if form = .braced then none
      else (within change path entries).map fun inner => table.insert key (.table form inner)
    | some (.tables earlier last) =>
      (within change path last).map fun inner => table.insert key (.tables earlier inner)
    | some _ => none

/-- Opens the table of a header: it must be new, or made on the way to deeper tables. -/
def openTable (key : String) (table : Table Value) : Option (Table Value) :=
  match table.lookup key with
  | none => some (table.insert key (.table .header []))
  | some (.table .step entries) => some (table.insert key (.table .header entries))
  | some _ => none

/-- Opens a further table of the list of a repeated header. -/
def openElement (key : String) (table : Table Value) : Option (Table Value) :=
  match table.lookup key with
  | none => some (table.insert key (.tables [] []))
  | some (.tables earlier last) => some (table.insert key (.tables (earlier ++ [last]) []))
  | some _ => none

/-- What a document has said so far: its table, and the path of the last header. -/
structure Progress where
  table : Table Value := []
  current : List String := []

/-- What one statement adds. -/
def Progress.apply (progress : Progress) : Statement → Option Progress
  | .header path =>
    (within (openTable (path.getLastD "")) path.dropLast progress.table).map (⟨·, path⟩)
  | .element path =>
    (within (openElement (path.getLastD "")) path.dropLast progress.table).map (⟨·, path⟩)
  | .entry path value =>
    (within (assign value path) progress.current progress.table).map (⟨·, progress.current⟩)

/-- The table of a document. -/
def ofStatements (statements : List Statement) : Option (Table Value) :=
  (statements.foldlM Progress.apply {}).map Progress.table

/-! ## Reading -/

/-- How deep the lists and the tables of a value may be nested. -/
def nestingLimit : Nat := 80

namespace Scan

/-- A header, after its first bracket. -/
def header : Scan Statement := do
  let repeated ← acceptIf '['
  spaces
  let path ← key
  accept ']'
  if repeated then
    accept ']'
    pure (.element path)
  else pure (.header path)

def statement : Scan Statement := do
  if ← acceptIf '[' then header
  else
    let path ← key
    accept '='
    spaces
    .entry path <$> value nestingLimit

/-- The statements up to the end of the text, each on lines of its own. -/
def statements : Nat → Scan (List Statement)
  | 0 => failure
  | fuel + 1 => do
    blanks
    match ← peek with
    | none => pure []
    | some _ =>
      let first ← statement
      lineEnd
      let more ← statements fuel
      pure (first :: more)

end Scan

/-- A text without a byte order mark before it. -/
def dropMark : List Char → List Char
  | '\uFEFF' :: rest => rest
  | text => text

/-- The table of a document's text, or nothing when the text is no document. -/
def read? (text : String) : Option (Table Value) := do
  let chars := dropMark text.toList
  let (statements, _) ← Scan.statements (chars.length + 1) chars
  ofStatements statements

end Polyglot.Toml
