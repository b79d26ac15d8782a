import Polyglot.Number.Digits
import Polyglot.Toml.Scan

/-!
# Texts

Basic texts stand between double quotes and may hold escapes; literal texts stand
between single quotes and hold none. Either may go over several lines between
quotes written three times.
-/

namespace Polyglot.Toml

/-- A character before the characters that a scan reads. -/
def push (c : Char) (more : Option (List Char × List Char)) : Option (List Char × List Char) :=
  more.map fun (body, rest) => (c :: body, rest)

/-! ## Escapes -/

/-- The character with the number that `count` hexadecimal digits spell. -/
def numberedEscape (count : Nat) (text : List Char) : Option (Char × List Char) :=
  let digits := text.take count
  let n := Digits.number 16 digits
  if digits.length = count && digits.all (Digits.isDigitOf 16) && decide n.isValidChar then
    some (Char.ofNat n, text.drop count)
  else none

/-- The character that an escape stands for, after its backslash. -/
def escape : List Char → Option (Char × List Char)
  | [] => none
  | c :: rest =>
    if c = 'b' then some ('\x08', rest)
    else if c = 't' then some ('\t', rest)
    else if c = 'n' then some ('\n', rest)
    else if c = 'f' then some ('\x0c', rest)
    else if c = 'r' then some ('\r', rest)
    else if c = 'e' then some ('\x1b', rest)
    else if c = '"' then some ('"', rest)
    else if c = '\\' then some ('\\', rest)
    else if c = 'x' then numberedEscape 2 rest
    else if c = 'u' then numberedEscape 4 rest
    else if c = 'U' then numberedEscape 8 rest
    else none

/-- What follows the blanks after a backslash at the end of a line. -/
def foldedLine? (text : List Char) : Option (List Char) :=
  let rest := text.dropWhile isSpace
  if startsLine rest then some (rest.dropWhile fun c => isSpace c || c = '\n' || c = '\r') else none

/-! ## Bodies -/

/-- Where a text ends: the quotes before the closing ones that still belong to it,
    and what follows. Three quotes close a text of several lines, and up to two
    more may precede them. -/
def closing? (quote : Char) (lines : Bool) (text : List Char) : Option (List Char × List Char) :=
  let run := (text.takeWhile (· = quote)).length
  if lines then
    if run < 3 then none else some (List.replicate (min (run - 3) 2) quote, text.drop (min run 5))
  else if run = 0 then none
  else some ([], text.drop 1)

/-- Whether the first character of a text may stand in a body as it is. -/
def isPlain (lines : Bool) (text : List Char) : Bool :=
  (text.head?.map isTextChar).getD false || (lines && (startsLine text))

/-- The characters of a basic text and what follows it. Every step takes a
    character, so as much fuel as there are characters is enough. -/
def basicBody (lines : Bool) : Nat → List Char → Option (List Char × List Char)
  | _, [] => none
  | 0, _ => none
  | fuel + 1, c :: rest =>
    match closing? '"' lines (c :: rest) with
    | some ending => some ending
    | none =>
      if c = '\\' then
        match if lines then foldedLine? rest else none with
        | some after => basicBody lines fuel after
        | none =>
          match escape rest with
          | some (meaning, after) => push meaning (basicBody lines fuel after)
          | none => none
      else if isPlain lines (c :: rest) then push c (basicBody lines fuel rest)
      else none

/-- The characters of a literal text and what follows it. -/
def literalBody (lines : Bool) : List Char → Option (List Char × List Char)
  | [] => none
  | c :: rest =>
    match closing? '\'' lines (c :: rest) with
    | some ending => some ending
    | none => if isPlain lines (c :: rest) then push c (literalBody lines rest) else none

/-- A text of several lines does not hold a line end right after its opening quotes. -/
def dropLineEnd : List Char → List Char
  | '\n' :: rest => rest
  | '\r' :: '\n' :: rest => rest
  | text => text

/-- Whether a text begins with a quote written three times. -/
def startsTriple (quote : Char) (text : List Char) : Bool := text.take 3 = List.replicate 3 quote

namespace Scan

def basic (lines : Bool) : Scan String := fun text =>
  (basicBody lines text.length text).map fun (body, rest) => (String.ofList body, rest)

def literal (lines : Bool) : Scan String := fun text =>
  (literalBody lines text).map fun (body, rest) => (String.ofList body, rest)

/-- A text on one line. -/
def lineText : Scan String
  | '"' :: rest => basic false rest
  | '\'' :: rest => literal false rest
  | _ => none

/-- A text of any kind. -/
def text : Scan String := fun text =>
  if startsTriple '"' text then basic true (dropLineEnd (text.drop 3))
  else if startsTriple '\'' text then literal true (dropLineEnd (text.drop 3))
  else lineText text

end Scan

example : Scan.text "\"a\\u00e9\\\\\" x".toList = some ("aé\\", [' ', 'x']) := by decide +kernel
example : Scan.text "'a\\b'".toList = some ("a\\b", []) := by decide +kernel
example : Scan.text "\"\"\"\na \\\n  b\"\"\"\"".toList = some ("a b\"", []) := by decide +kernel
example : Scan.text "'a\nb'".toList = none := by decide +kernel

end Polyglot.Toml
