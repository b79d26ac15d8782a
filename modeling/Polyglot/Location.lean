/-!
# Locations

Where in a text something stands. Lines and columns are words counted from one;
nothing forces them to lie inside a text.
-/

namespace Polyglot

/-- A line and a column, counted from one. -/
structure Position where
  line : UInt64
  column : UInt64
  deriving DecidableEq, Inhabited, Repr

/-- A point of a text, or a range up to `stop`, whose column is exclusive. -/
structure Location where
  start : Position
  stop : Option Position
  deriving DecidableEq, Inhabited, Repr

namespace Location

def point (start : Position) : Location := ⟨start, none⟩

def range (start stop : Position) : Location := ⟨start, some stop⟩

end Location

/-- The position after a text that begins at the first position: its line is one
    more than the newlines, its column one more than the characters after the last. -/
def Position.after (text : List Char) : Position :=
  ⟨.ofNat (text.count '\n' + 1), .ofNat ((text.reverse.takeWhile (· ≠ '\n')).length + 1)⟩

end Polyglot
