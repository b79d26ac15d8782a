/-!
# Scanning a TOML text

A scan reads the beginning of a text and leaves the rest, or refuses the text. A
text that is no TOML is refused as a whole, so a scan has no other failure.
-/

namespace Polyglot.Toml

/-- Reads the beginning of a text. -/
abbrev Scan := StateT (List Char) Option

/-- Whether a character may stand in a text or a comment: any but the control
    characters other than the tab. -/
def isTextChar (c : Char) : Bool := c = '\t' || (0x20 ≤ c.toNat && c.toNat ≠ 0x7F)

def isSpace (c : Char) : Bool := c = ' ' || c = '\t'

/-- Whether a text begins with the end of a line, `"\n"` or `"\r\n"`. -/
def startsLine : List Char → Bool
  | '\n' :: _ => true
  | '\r' :: '\n' :: _ => true
  | _ => false

/-- What follows the spaces, line ends and comments at the beginning of a text,
    where `comment` says that the text begins inside a comment. -/
def dropBlanks (comment : Bool) : List Char → Option (List Char)
  | [] => some []
  | c :: rest =>
    if c = '\n' then dropBlanks false rest
    else if c = '\r' then
      if startsLine (c :: rest) then dropBlanks comment rest else none
    else if comment then
      if isTextChar c then dropBlanks true rest else none
    else if c = '#' then dropBlanks true rest
    else if isSpace c then dropBlanks false rest
    else some (c :: rest)

namespace Scan

/-- The number of characters left, which bounds the steps of a repetition. -/
def remaining : Scan Nat := fun text => some (text.length, text)

def peek : Scan (Option Char) := fun text => some (text.head?, text)

/-- Reads the characters that satisfy `p`. -/
def takeWhile (p : Char → Bool) : Scan (List Char) := fun text =>
  some (text.takeWhile p, text.dropWhile p)

/-- Reads a character when it is the next one. -/
def acceptIf (expected : Char) : Scan Bool
  | [] => some (false, [])
  | c :: rest => if c = expected then some (true, rest) else some (false, c :: rest)

/-- Reads a character that must be the next one. -/
def accept (expected : Char) : Scan Unit
  | [] => none
  | c :: rest => if c = expected then some ((), rest) else none

/-- Passes over spaces and tabs. -/
def spaces : Scan Unit := fun text => some ((), text.dropWhile isSpace)

/-- Passes over spaces, line ends and comments. -/
def blanks : Scan Unit := fun text => (dropBlanks false text).map fun rest => ((), rest)

/-- The line must end here, but for spaces and a comment. -/
def lineEnd : Scan Unit := fun text =>
  let rest := text.dropWhile isSpace
  if rest = [] || rest.head? = some '#' || startsLine rest then some ((), rest) else none

end Scan

example : dropBlanks false ['#', 'x', '\n', ' ', 'a'] = some ['a'] := by decide
example : dropBlanks false ['\r', 'a'] = none := by decide

end Polyglot.Toml
