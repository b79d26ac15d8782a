import Polyglot.Json.Problem
import Polyglot.Number.Digits

/-!
# Reading a JSON text

A reader walks along the characters of a text. A problem names the place where it
was seen, counted in the bytes of the text; a problem with the shape of a value
has no place of its own and takes the one where the enclosing value ends.
-/

namespace Polyglot.Json

/-- The characters still to read, and the number of bytes read before them. -/
structure Cursor where
  rest : List Char
  offset : Nat

/-- A problem and the byte offset of its place, when it has one. -/
structure ReadError where
  problem : Problem
  place : Option Nat

abbrev Reader (α : Type) := EStateM ReadError Cursor α

namespace Reader

/-- Fails at the place reached. -/
def failHere {α : Type} (problem : Problem) : Reader α :=
  fun cursor => .error ⟨problem, some cursor.offset⟩ cursor

/-- Fails at the next byte, or at the end of the text. -/
def failNext {α : Type} (problem : Problem) : Reader α :=
  fun cursor =>
    .error ⟨problem, some (if cursor.rest = [] then cursor.offset else cursor.offset + 1)⟩ cursor

/-- Fails with a problem that has no place yet. -/
def failUnplaced {α : Type} (problem : Problem) : Reader α :=
  fun cursor => .error ⟨problem, none⟩ cursor

/-- Gives a problem without a place the place that the reader has reached. -/
def placed {α : Type} (reader : Reader α) : Reader α := fun cursor =>
  match reader cursor with
  | .ok value after => .ok value after
  | .error problem after => .error { problem with place := some (problem.place.getD after.offset) } after

/-- Reads the end of a value even after a problem inside it, which goes first. -/
def closedBy {α : Type} (close : Reader Unit) (body : Reader α) : Reader α := fun cursor =>
  match body cursor with
  | .ok value inner =>
    match close inner with
    | .ok _ after => .ok value after
    | .error problem after => .error problem after
  | .error problem inner =>
    match close inner with
    | .ok _ after => .error problem after
    | .error _ after => .error problem after

/-- The next character, which stays. -/
def peek : Reader (Option Char) := fun cursor => .ok cursor.rest.head? cursor

/-- The number of characters still to read. -/
def remaining : Reader Nat := fun cursor => .ok cursor.rest.length cursor

/-- Passes over the next character. -/
def advance : Reader Unit := fun cursor =>
  match cursor.rest with
  | [] => .ok () cursor
  | c :: rest => .ok () ⟨rest, cursor.offset + c.utf8Size⟩

/-- Takes the next character. -/
def next : Reader (Option Char) := do
  let c ← peek
  advance
  pure c

/-- The bytes that characters take. -/
def byteCount (text : List Char) : Nat := text.foldr (fun c count => c.utf8Size + count) 0

/-- Takes the longest run of characters that satisfy `p`. -/
def takeWhile (p : Char → Bool) : Reader (List Char) := fun cursor =>
  let run := cursor.rest.takeWhile p
  .ok run ⟨cursor.rest.dropWhile p, cursor.offset + byteCount run⟩

def isSpace (c : Char) : Bool := c = ' ' || c = '\n' || c = '\t' || c = '\r'

/-- Passes over spaces and shows the next character. -/
def skipSpaces : Reader (Option Char) := do
  let _ ← takeWhile isSpace
  peek

/-- Reads the rest of a literal such as `null`. -/
def literal : List Char → Reader Unit
  | [] => pure ()
  | expected :: more => do
    match ← peek with
    | none => failHere .endInValue
    | some c =>
      if c = expected then
        advance
        literal more
      else failNext .expectedLiteral

/-! ## Strings -/

/-- Four hexadecimal digits. The four bytes of a bad escape are passed over. -/
def fourHexDigits : Reader Nat := fun cursor =>
  match cursor.rest with
  | a :: b :: c :: d :: rest =>
    match Digits.value? a, Digits.value? b, Digits.value? c, Digits.value? d with
    | some w, some x, some y, some z => .ok (((w * 16 + x) * 16 + y) * 16 + z) ⟨rest, cursor.offset + 4⟩
    | _, _, _, _ => .error ⟨.badEscape, some (cursor.offset + 4)⟩ cursor
  | few =>
    let bytes := byteCount few
    if 4 ≤ bytes then .error ⟨.badEscape, some (cursor.offset + 4)⟩ cursor
    else .error ⟨.endInString, some (cursor.offset + bytes)⟩ cursor

/-- One of the two characters that join a leading surrogate to the next escape. -/
def surrogateLink (expected : Char) : Reader Unit := do
  match ← peek with
  | none => failHere .endInString
  | some c => if c = expected then advance else failNext .unpairedSurrogate

/-- The character that an escape stands for, after its backslash. -/
def escape : Reader Char := do
  match ← peek with
  | none => failHere .endInString
  | some 'u' =>
    advance
    let first ← fourHexDigits
    if 0xDC00 ≤ first && first ≤ 0xDFFF then failHere .loneSurrogate
    else if first < 0xD800 || 0xDBFF < first then pure (Char.ofNat first)
    else
      surrogateLink '\\'
      surrogateLink 'u'
      let second ← fourHexDigits
      if second < 0xDC00 || 0xDFFF < second then failHere .loneSurrogate
      else pure (Char.ofNat ((first - 0xD800) * 0x400 + (second - 0xDC00) + 0x10000))
  | some c =>
    let simple (meaning : Char) : Reader Char := do
      advance
      pure meaning
    if c = '"' || c = '\\' || c = '/' then simple c
    else if c = 'b' then simple '\x08'
    else if c = 'f' then simple '\x0c'
    else if c = 'n' then simple '\n'
    else if c = 'r' then simple '\r'
    else if c = 't' then simple '\t'
    else failNext .badEscape

/-- Reads a string up to its closing quote. Every step takes a character, so as
    much fuel as there are characters left is enough. -/
def stringFrom : Nat → List Char → Reader String
  | 0, _ => failHere .endInString
  | fuel + 1, sofar => do
    match ← peek with
    | none => failHere .endInString
    | some c =>
      if c = '"' then
        advance
        pure (String.ofList sofar.reverse)
      else if c = '\\' then
        advance
        let meaning ← escape
        stringFrom fuel (meaning :: sofar)
      else if c.toNat < 0x20 then failNext .controlCharacter
      else
        advance
        stringFrom fuel (c :: sofar)

/-- Reads a string after its opening quote. -/
def string : Reader String := do
  stringFrom ((← remaining) + 1) []

/-- An escape in a string that is only passed over: surrogates need no partner. -/
def skipEscape : Reader Unit := do
  match ← peek with
  | none => failHere .endInString
  | some c =>
    if c = 'u' then
      advance
      let _ ← fourHexDigits
    else if c = '"' || c = '\\' || c = '/' || c = 'b' || c = 'f' || c = 'n' || c = 'r' || c = 't' then advance
    else failNext .badEscape

def skipStringFrom : Nat → Reader Unit
  | 0 => failHere .endInString
  | fuel + 1 => do
    match ← peek with
    | none => failHere .endInString
    | some c =>
      if c = '"' then advance
      else if c = '\\' then
        advance
        skipEscape
        skipStringFrom fuel
      else if c.toNat < 0x20 then failHere .controlCharacter
      else
        advance
        skipStringFrom fuel

/-- Passes over a string after its opening quote. -/
def skipString : Reader Unit := do
  skipStringFrom ((← remaining) + 1)

end Reader

end Polyglot.Json
