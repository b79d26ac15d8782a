import Polyglot.Text.Unprintable

/-!
# Quoted texts

How a message shows a text or a character that may hold anything: between double
quotes, with the quote, the backslash and the usual control characters escaped,
and every other character without a picture spelled by its number.
-/

namespace Polyglot.Text

/-- The spelling of a character by its number, in lower-case hexadecimal digits. -/
def numbered (c : Char) : List Char :=
  ['\\', 'u', '{'] ++ Nat.toDigits 16 c.toNat ++ ['}']

/-- A character inside a quoted text. -/
def quotedChar (c : Char) : List Char :=
  if c = '"' then ['\\', '"']
  else if c = '\\' then ['\\', '\\']
  else if c = '\x00' then ['\\', '0']
  else if c = '\t' then ['\\', 't']
  else if c = '\n' then ['\\', 'n']
  else if c = '\r' then ['\\', 'r']
  else if c.toNat < 0x20 || c.toNat = 0x7F || isUnprintable c then numbered c
  else [c]

def quotedChars (text : List Char) : List Char :=
  '"' :: text.flatMap quotedChar ++ ['"']

/-- A text between double quotes. -/
def quoted (text : String) : String := String.ofList (quotedChars text.toList)

/-- A text that may be absent, as its constructor. -/
def quotedOption : Option String → String
  | none => "None"
  | some text => "Some(" ++ quoted text ++ ")"

example : quoted "q\"\\\n\t" = "\"q\\\"\\\\\\n\\t\"" := by decide +kernel

end Polyglot.Text
