import Polyglot.Location
import Polyglot.Settings.Basic
import Polyglot.Text.Lines

/-!
# Frames

A frame is an excerpt of a text around a location: the lines from some above the
first marked line to some below the last, each with its number in a gutter, and
under each marked line the carets of its mark. `Frame.rows` says which lines are
shown and marked, `Frame.render` how the rows are written.
-/

namespace Polyglot.Frame

/-- A place in the lines of a text, counted from one. -/
structure Spot where
  line : Nat
  column : Nat
  deriving DecidableEq, Repr

/-- The carets under a line: the column of the first, and how many. -/
structure Mark where
  column : Nat
  count : Nat
  deriving DecidableEq, Repr

/-- A line that is shown. -/
structure Row where
  number : Nat
  line : List Char
  mark : Option Mark
  deriving DecidableEq, Repr

/-! ## What is marked -/

/-- Brings a position to the lines of a text: a line before the first or after the
    last becomes that line, and column zero becomes column one. -/
def bring (lineCount : Nat) (position : Position) : Spot :=
  ⟨min (max position.line.toNat 1) lineCount, max position.column.toNat 1⟩

/-- An end at the first column of a line covers nothing of that line, so the range
    ends after the last character of the line before. -/
def exclusiveEnd (lines : List (List Char)) (start stop : Spot) : Spot :=
  if start.line < stop.line ∧ stop.column = 1 then
    ⟨stop.line - 1, (lines.getD (stop.line - 2) []).length + 1⟩
  else stop

/-- Where the marks of a location begin. -/
def startOf (lines : List (List Char)) (location : Location) : Spot :=
  bring lines.length location.start

/-- Where the marks of a range end; a range that ends before the line where it
    starts has no end. -/
def stopOf (lines : List (List Char)) (location : Location) : Option Spot :=
  let start := startOf lines location
  ((location.stop.map (bring lines.length)).filter fun stop => start.line ≤ stop.line).map
    (exclusiveEnd lines start)

/-- The mark of a line of the given number and length. A marked line has a caret
    even when no character of it is covered. -/
def markOf (start : Spot) (stop : Option Spot) (number length : Nat) : Option Mark :=
  match stop with
  | none => if number = start.line then some ⟨start.column, 1⟩ else none
  | some stop =>
    if stop.line = start.line then
      if number = start.line then some ⟨start.column, max (stop.column - start.column) 1⟩ else none
    else if number < start.line ∨ stop.line < number then none
    else if number = start.line then some ⟨start.column, max (length + 1 - start.column) 1⟩
    else if number = stop.line then some ⟨1, max (stop.column - 1) 1⟩
    else some ⟨1, max length 1⟩

/-- The last marked line. -/
def lastMarked (start : Spot) (stop : Option Spot) : Nat :=
  match stop with
  | none => start.line
  | some stop => stop.line

/-! ## What is shown -/

/-- The sum of two words, as words add. -/
def wordSum (a b : Nat) : Nat := (a + b) % Nat.pow 2 64

/-- The first line shown. -/
def firstShown (settings : FrameSettings) (start : Spot) : Nat :=
  max (start.line - settings.linesAbove.toNat) 1

/-- The last line shown. -/
def lastShown (settings : FrameSettings) (lineCount : Nat) (start : Spot) (stop : Option Spot) : Nat :=
  min (wordSum (lastMarked start stop) settings.linesBelow.toNat) lineCount

/-- The rows of a frame, in the order of their numbers. -/
def rows (settings : FrameSettings) (lines : List (List Char)) (location : Location) : List Row :=
  let start := startOf lines location
  let stop := stopOf lines location
  let first := firstShown settings start
  let last := lastShown settings lines.length start stop
  (((lines.zipIdx 1).drop (first - 1)).take (last + 1 - first)).map fun (line, number) =>
    ⟨number, line, markOf start stop number line.length⟩

/-- The width of the gutter: the digits of the last number shown. -/
def gutterWidth (settings : FrameSettings) (lines : List (List Char)) (location : Location) : Nat :=
  (toString (lastShown settings lines.length (startOf lines location) (stopOf lines location))).length

/-! ## How it is written -/

/-- A number at the right of its gutter. -/
def gutter (width number : Nat) : List Char :=
  let digits := (toString number).toList
  List.replicate (width - digits.length) ' ' ++ digits

/-- The row of a line: `>` before a marked one, then the number and the line. An
    empty line leaves nothing after the bar. -/
def sourceRow (width : Nat) (row : Row) : List Char :=
  (if row.mark.isSome then ['>', ' '] else [' ', ' ']) ++ gutter width row.number ++ [' ', '|'] ++
    (if row.line = [] then [] else ' ' :: row.line)

/-- What stands before the first caret: a tab where the line has one, so that the
    carets stand under their characters, and spaces elsewhere and past the end. -/
def spacing (line : List Char) (column : Nat) : List Char :=
  let before := line.take (column - 1)
  before.map (fun c => if c = '\t' then '\t' else ' ') ++ List.replicate (column - 1 - before.length) ' '

/-- The row of the carets under a marked line. -/
def caretRow (width : Nat) (line : List Char) (mark : Mark) : List Char :=
  [' ', ' '] ++ List.replicate width ' ' ++ [' ', '|', ' '] ++ spacing line mark.column ++
    List.replicate mark.count '^'

def renderRow (width : Nat) (row : Row) : List (List Char) :=
  sourceRow width row :: (row.mark.map (caretRow width row.line)).toList

/-- The frame of a location in a text. -/
def render (settings : FrameSettings) (text : String) (location : Location) : String :=
  let lines := Text.sourceLines text.toList
  let width := gutterWidth settings lines location
  String.ofList (['\n'].intercalate ((rows settings lines location).flatMap (renderRow width)))

end Polyglot.Frame
