import Polyglot.Json.Numeral

/-!
# Values

Reading the lists and objects of a JSON text, building values or passing over
them. The parts are shared with the readers of typed values: `hasItem`, `hasKey`,
`colon`, `endList` and `endObject` are the punctuation between items.
-/

namespace Polyglot.Json

namespace Reader

/-! ## Punctuation -/

/-- Whether a list has a further item, after the comma that precedes it. -/
def hasItem (first : Bool) : Reader Bool := do
  match ← skipSpaces with
  | none => failNext .endInList
  | some ']' => pure false
  | some c =>
    if first then pure true
    else if c = ',' then
      advance
      match ← skipSpaces with
      | some ']' => failNext .trailingComma
      | some _ => pure true
      | none => failNext .endInValue
    else failNext .expectedListEnd

/-- Whether an object has a further member, after the comma that precedes it. -/
def hasKey (first : Bool) : Reader Bool := do
  match ← skipSpaces with
  | none => failNext .endInObject
  | some '}' => pure false
  | some c =>
    if first then
      if c = '"' then pure true else failNext .keyNotText
    else if c = ',' then
      advance
      match ← skipSpaces with
      | some '"' => pure true
      | some '}' => failNext .trailingComma
      | some _ => failNext .keyNotText
      | none => failNext .endInValue
    else failNext .expectedObjectEnd

/-- A key, whose opening quote is next. -/
def key : Reader String := do
  advance
  string

def colon : Reader Unit := do
  match ← skipSpaces with
  | some ':' => advance
  | some _ => failNext .expectedColon
  | none => failNext .endInObject

def endList : Reader Unit := do
  match ← skipSpaces with
  | some ']' => advance
  | some ',' =>
    advance
    match ← skipSpaces with
    | some ']' => failNext .trailingComma
    | _ => failNext .trailingCharacters
  | some _ => failNext .trailingCharacters
  | none => failNext .endInList

def endObject : Reader Unit := do
  match ← skipSpaces with
  | some '}' => advance
  | some ',' => failNext .trailingComma
  | some _ => failNext .trailingCharacters
  | none => failNext .endInObject

/-- Nothing but spaces may follow. -/
def endText : Reader Unit := do
  match ← skipSpaces with
  | some _ => failNext .trailingCharacters
  | none => pure ()

/-! ## Values -/

/-- The items of a list, each read by `item`. Every item takes a character, so as
    much fuel as there are characters left is enough. -/
def itemsFrom (item : Reader Json) : Nat → Bool → Reader (List Json)
  | 0, _ => failHere .endInList
  | fuel + 1, first => do
    if ← hasItem first then
      let value ← item
      let more ← itemsFrom item fuel false
      pure (value :: more)
    else pure []

/-- The members of an object, in the order of the text. -/
def membersFrom (item : Reader Json) : Nat → Bool → Reader (List (String × Json))
  | 0, _ => failHere .endInObject
  | fuel + 1, first => do
    if ← hasKey first then
      let name ← key
      colon
      let value ← item
      let more ← membersFrom item fuel false
      pure ((name, value) :: more)
    else pure []

/-- Any value, whose lists and objects are nested at most `depth` deep. -/
def value (depth : Nat) : Reader Json := do
  match ← skipSpaces with
  | none => failNext .endInValue
  | some 'n' =>
    advance
    literal ['u', 'l', 'l']
    pure .null
  | some 't' =>
    advance
    literal ['r', 'u', 'e']
    pure (.bool true)
  | some 'f' =>
    advance
    literal ['a', 'l', 's', 'e']
    pure (.bool false)
  | some '-' =>
    advance
    pure (.number (← numeral true))
  | some '"' =>
    advance
    pure (.text (← string))
  | some '[' =>
    match depth with
    | 0 => failNext .tooDeep
    | depth + 1 =>
      advance
      closedBy endList do pure (.list (← itemsFrom (value depth) ((← remaining) + 1) true))
  | some '{' =>
    match depth with
    | 0 => failNext .tooDeep
    | depth + 1 =>
      advance
      closedBy endObject do pure (.ofMembers (← membersFrom (value depth) ((← remaining) + 1) true))
  | some c =>
    if c.isDigit then pure (.number (← numeral false)) else failNext .expectedValue

/-! ## Passing over values -/

/-- The kinds of brackets that a skipped value has open. -/
inductive Bracket
  | list
  | object
  deriving DecidableEq

def Bracket.close : Bracket → Char
  | .list => ']'
  | .object => '}'

/-- Closes the open brackets that end here, the innermost first. The answer is
    the brackets still open when a further item follows, and `none` when the
    value is complete; `comma` says whether a comma may come first. -/
def closeBrackets (comma : Bool) : List Bracket → Reader (Option (List Bracket))
  | [] => pure none
  | bracket :: outer => do
    match ← skipSpaces with
    | none =>
      match bracket with
      | .list => failNext .endInList
      | .object => failNext .endInObject
    | some c =>
      if c = ',' && comma then
        advance
        pure (some (bracket :: outer))
      else if c = bracket.close then
        advance
        closeBrackets true outer
      else if comma then
        match bracket with
        | .list => failNext .expectedListEnd
        | .object => failNext .expectedObjectEnd
      else pure (some (bracket :: outer))

/-- Passes over the key of a skipped member. -/
def skipKey : Reader Unit := do
  match ← skipSpaces with
  | some '"' => advance
  | some _ => failNext .keyNotText
  | none => failNext .endInObject
  skipString
  match ← skipSpaces with
  | some ':' => advance
  | some _ => failNext .expectedColon
  | none => failNext .endInObject

/-- Passes over a value inside the open brackets, to any depth. -/
def skipFrom : Nat → List Bracket → Reader Unit
  | 0, _ => failHere .endInValue
  | fuel + 1, opened => do
    let (comma, opened) ← do
      match ← skipSpaces with
      | none => failNext .endInValue
      | some 'n' =>
        advance
        literal ['u', 'l', 'l']
        pure (true, opened)
      | some 't' =>
        advance
        literal ['r', 'u', 'e']
        pure (true, opened)
      | some 'f' =>
        advance
        literal ['a', 'l', 's', 'e']
        pure (true, opened)
      | some '-' =>
        advance
        skipNumeral
        pure (true, opened)
      | some '"' =>
        advance
        skipString
        pure (true, opened)
      | some '[' =>
        advance
        pure (false, Bracket.list :: opened)
      | some '{' =>
        advance
        pure (false, Bracket.object :: opened)
      | some c =>
        if c.isDigit then
          skipNumeral
          pure (true, opened)
        else failNext .expectedValue
    match ← closeBrackets comma opened with
    | none => pure ()
    | some opened =>
      if opened.head? = some .object then skipKey
      skipFrom fuel opened

/-- Passes over one value. -/
def skipValue : Reader Unit := do
  skipFrom ((← remaining) + 1) []

end Reader

/-! ## Whole texts -/

/-- A problem with a text: its place is a line and a column, counted in bytes from one
    and zero, when it has one. -/
structure TextError where
  problem : Problem
  place : Option (Nat × Nat)

/-- The line and the column of a byte offset, walking from the line and column given. -/
def placeFrom (line column : Nat) : List Char → Nat → Nat × Nat
  | [], _ => (line, column)
  | c :: rest, offset =>
    if offset < c.utf8Size then (line, column + offset)
    else if c = '\n' then placeFrom (line + 1) 0 rest (offset - 1)
    else placeFrom line (column + c.utf8Size) rest (offset - c.utf8Size)

/-- Reads a whole text. -/
def Reader.run {α : Type} (reader : Reader α) (text : String) : Except TextError α :=
  let whole : Reader α := do
    let value ← reader
    endText
    pure value
  match whole ⟨text.toList, 0⟩ with
  | .ok value _ => .ok value
  | .error error _ => .error ⟨error.problem, error.place.map (placeFrom 1 0 text.toList)⟩

/-- How deep lists and objects may be nested. -/
def nestingLimit : Nat := 127

/-- Reads a text as any value. -/
def read (text : String) : Except TextError Json := (Reader.value nestingLimit).run text

end Polyglot.Json
