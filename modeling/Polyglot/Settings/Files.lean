import Polyglot.Table
import Polyglot.Text.Search

/-!
# Files of settings

Where the documents of settings are found. The files stand under the directory
`config`; a document is named by a path from there, and its ending `.toml` may be
left out. A file that has the exact name but another ending holds no settings.
-/

namespace Polyglot.Settings

/-- The contents of the files under the directory of settings, by their paths from there. -/
abbrev Files := Table String

/-- The directory of settings. -/
def directory : String := "config"

/-- The parts of a path between its slashes. -/
def splitPath : List Char → List (List Char)
  | [] => [[]]
  | c :: rest =>
    if c = '/' then [] :: splitPath rest
    else
      match splitPath rest with
      | [] => [[c]]
      | part :: more => (c :: part) :: more

/-- The path of a file from the working directory. -/
abbrev Path := List String

/-- The parts of a path without those that stay where they are. -/
def partsOf (path : String) : Path :=
  ((splitPath path.toList).map String.ofList).filter fun part => part ≠ "" && part ≠ "."

/-- The path of a file in the directory of settings. -/
def filePath (name : String) : Path := directory :: partsOf name

/-- Whether a directory is the working directory or holds a file of settings. -/
def isDirectory (files : Files) (path : Path) : Bool :=
  path = [] || path = [directory] ||
    files.any fun (name, _) => path.isPrefixOf (filePath name).dropLast

/-- Follows the parts of a path from a directory; every part but the last one must
    lead to a directory, and the way must not leave the working directory. -/
def follow (files : Files) (current : Path) : Path → Option Path
  | [] => some current
  | part :: rest =>
    let next := if part = ".." then (if current = [] then none else some current.dropLast)
      else some (current ++ [part])
    match next with
    | none => none
    | some next => if rest = [] || isDirectory files next then follow files next rest else none

/-- The content of the file at a path from the working directory. -/
def content? (files : Files) (path : Path) : Option String :=
  (follow files [] path).bind fun target =>
    (files.find? fun (name, _) => filePath name = target).map Prod.snd

/-- What follows the last point of a name, unless nothing precedes it. -/
def ending (name : String) : String :=
  match (name.toList.reverse.span (· ≠ '.')) with
  | (_, []) => ""
  | (_, [_]) => ""
  | (last, _) => String.ofList last.reverse

/-- Whether a path names a directory by its spelling. -/
def namesDirectory (path : String) : Bool :=
  let last := (splitPath path.toList).getLastD []
  last = [] || last = ['.'] || last = ['.', '.']

/-- The document that a name stands for: its path, joined, and its content. -/
def document? (files : Files) (name : String) : Option (String × String) :=
  if name.toList.head? = some '/' then none
  else
    let path := filePath name
    let last := path.getLastD ""
    let exact := if namesDirectory name then none else content? files path
    match exact with
    | some content => if ending last = "toml" then some ("/".intercalate path, content) else none
    | none =>
      if last = ".." then none
      else
        let completed := path.dropLast ++ [last ++ ".toml"]
        (content? files completed).map fun content => ("/".intercalate completed, content)

example : ending "a.toml" = "toml" ∧ ending ".toml" = "" ∧ ending "v1.2" = "2" := by decide +kernel
example : document? [("sub/prod.toml", "x")] "sub/prod" = some ("config/sub/prod.toml", "x") := by decide +kernel
example : document? [("s", "x"), ("s.toml", "y")] "s" = none := by decide +kernel
example : document? [("a.toml", "x")] "../config/./a" = some ("config/../config/a.toml", "x") := by decide +kernel

end Polyglot.Settings
