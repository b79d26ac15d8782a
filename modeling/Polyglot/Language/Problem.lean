import Polyglot.Fault

/-!
# Problems in a text

What is wrong with a text, and before which character.
-/

namespace Polyglot.Language

/-- What is wrong, and how many characters stand before the place. -/
structure Problem where
  offset : Nat
  message : String
  deriving DecidableEq, Repr

namespace Problem

/-- The problem seen from a text in which so many characters stand before the part that has it. -/
def shift (before : Nat) (problem : Problem) : Problem :=
  { problem with offset := before + problem.offset }

/-- The fault of a problem in a text, located at the position of its place. -/
def fault (text : List Char) (problem : Problem) : Fault :=
  (Fault.syntactic problem.message).located (.point (.after (text.take problem.offset)))

end Problem

end Polyglot.Language
