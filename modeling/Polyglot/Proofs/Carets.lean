import Polyglot.Proofs.Frames

/-!
# Carets of a location in a text

A location whose places are in the text marks the lines that it reaches into (`Reaches`), and under
each of these the carets stand below just the characters that it covers (`Covers`). A line in which it covers none
has one caret, where the location starts or at the first column (`carets_of_inside`).
-/

namespace Polyglot

/-- The place that a position names. -/
def Position.spot (position : Position) : Frame.Spot := ⟨position.line.toNat, position.column.toNat⟩

namespace Frame

/-- An earlier line, or an earlier column of the line. -/
def Spot.Before (spot other : Spot) : Prop :=
  spot.line < other.line ∨ spot.line = other.line ∧ spot.column < other.column

instance (spot other : Spot) : Decidable (spot.Before other) := inferInstanceAs (Decidable (_ ∨ _))

/-- The place is at a character of the lines, or right after the last one of its line. -/
structure Spot.In (lines : List (List Char)) (spot : Spot) : Prop where
  line_pos : 0 < spot.line
  line_le : spot.line ≤ lines.length
  column_pos : 0 < spot.column
  column_le : spot.column ≤ (lineAt lines spot.line).length + 1

/-- The location starts in the lines, and ends in them after its start if it has an end. -/
structure Inside (lines : List (List Char)) (location : Location) : Prop where
  start : location.start.spot.In lines
  stop : ∀ stop ∈ location.stop, stop.spot.In lines ∧ location.start.spot.Before stop.spot

/-- The line where a location starts, those between its ends, and the one where it ends after the first column. -/
def Reaches (location : Location) (number : Nat) : Prop :=
  number = location.start.spot.line ∨
    ∃ stop ∈ location.stop, location.start.spot.line < number ∧ number < stop.spot.line ∨
      number = stop.spot.line ∧ 1 < stop.spot.column

/-- A point covers its own place, a range those from its start to before its end. -/
def Covers (location : Location) (spot : Spot) : Prop :=
  match location.stop with
  | none => spot = location.start.spot
  | some stop => ¬ spot.Before location.start.spot ∧ spot.Before stop.spot

/-- The columns under which a line of this length has carets: the covered ones, or one where none is covered. -/
def HasCaret (location : Location) (number length column : Nat) : Prop :=
  (0 < column ∧ column ≤ length ∧ Covers location ⟨number, column⟩) ∨
    (∀ other, 0 < other → other ≤ length → ¬ Covers location ⟨number, other⟩) ∧
      column = if number = location.start.spot.line then location.start.spot.column else 1

/-- What a frame has for a line: its row, and after a marked one a row of carets under columns of the line. -/
inductive Block (lines : List (List Char)) (location : Location) (width number : Nat) : List (List Char) → Prop
  | marked {source row carets : List Char} (found : lines[number - 1]? = some source)
      (reaches : Reaches location number)
      (begins : ['>', ' '] ++ gutter width number ++ [' ', '|'] <+: row)
      (shows : ∀ column, 0 < column → row[width + 4 + column]? = source[column - 1]?)
      (under : ∀ index, carets[index]? = some '^' ↔
        ∃ column, index = width + 4 + column ∧ HasCaret location number source.length column) :
      Block lines location width number [row, carets]
  | plain {source row : List Char} (found : lines[number - 1]? = some source) (beyond : ¬ Reaches location number)
      (begins : [' ', ' '] ++ gutter width number ++ [' ', '|'] <+: row)
      (shows : ∀ column, 0 < column → row[width + 4 + column]? = source[column - 1]?) :
      Block lines location width number [row]

variable {lines : List (List Char)} {location : Location}

/-! ## Where the marks begin and end -/

/-- A place in one of the lines stays where it is, also when it is past the end of its line. -/
theorem bring_eq_of_line {position : Position} (linePos : 0 < position.spot.line)
    (lineLe : position.spot.line ≤ lines.length) (columnPos : 0 < position.spot.column) :
    bring lines.length position = position.spot := by
  simp only [Position.spot] at linePos lineLe columnPos
  simp only [bring, Position.spot, Spot.mk.injEq]
  omega

theorem bring_eq {position : Position} (inside : position.spot.In lines) :
    bring lines.length position = position.spot :=
  bring_eq_of_line inside.line_pos inside.line_le inside.column_pos

theorem startOf_eq (inside : Inside lines location) : startOf lines location = location.start.spot :=
  bring_eq inside.start

theorem stopOf_eq_none (point : location.stop = none) : stopOf lines location = none := by
  simp only [stopOf, point, Option.map_none, Option.filter_none]

/-- An end in the text ends the marks; but those end with the line before when it is at the first column of a
    later line. -/
theorem stopOf_eq_some (inside : Inside lines location) {stop : Position} (range : location.stop = some stop) :
    stopOf lines location = some (exclusiveEnd lines location.start.spot stop.spot) := by
  obtain ⟨stopIn, after⟩ := inside.stop stop range
  have ordered : location.start.spot.line ≤ stop.spot.line := by
    rcases after with later | ⟨same, _⟩
    · exact Nat.le_of_lt later
    · exact Nat.le_of_eq same
  rw [stopOf_of_range range, startOf_eq inside, bring_eq stopIn, if_pos ordered]

/-- The lines between the first and the last marked one are those that the location reaches into. -/
theorem reaches_iff (inside : Inside lines location) (number : Nat) :
    Reaches location number ↔ firstMarked lines location ≤ number ∧ number ≤ finalMarked lines location := by
  unfold Reaches firstMarked finalMarked
  rw [startOf_eq inside]
  cases range : location.stop with
  | none =>
    rw [stopOf_eq_none range]
    simp only [lastMarked, Option.not_mem_none, false_and, exists_false, or_false]
    omega
  | some stop =>
    obtain ⟨stopIn, after⟩ := inside.stop stop range
    have columnPos := stopIn.column_pos
    unfold Spot.Before at after
    rw [stopOf_eq_some inside range]
    simp only [lastMarked, exclusiveEnd, Option.mem_some_iff, exists_eq_left']
    split
    · simp only
      omega
    · omega

/-! ## The columns of a line -/

/-- In a line that a range reaches into, its carets end where the range ends or past the last character. -/
theorem caretStop_of_range (inside : Inside lines location) {stop : Position} (range : location.stop = some stop)
    {number : Nat} (reaches : Reaches location number) :
    caretStop (startOf lines location) (stopOf lines location) number (lineAt lines number).length =
      if number = stop.spot.line then stop.spot.column else (lineAt lines number).length + 1 := by
  obtain ⟨stopIn, after⟩ := inside.stop stop range
  have columnPos := stopIn.column_pos
  unfold Spot.Before at after
  simp only [Reaches, range, Option.mem_some_iff, exists_eq_left'] at reaches
  rw [stopOf_eq_some inside range]
  by_cases moved : location.start.spot.line < stop.spot.line ∧ stop.spot.column = 1
  · have ended : exclusiveEnd lines location.start.spot stop.spot =
        ⟨stop.spot.line - 1, (lineAt lines (stop.spot.line - 1)).length + 1⟩ := if_pos moved
    rw [ended, if_neg (by omega)]
    simp only [caretStop]
    split
    · next last => rw [last]
    · rfl
  · have ended : exclusiveEnd lines location.start.spot stop.spot = stop.spot := if_neg moved
    rw [ended]
    rfl

/-- In a line that a location reaches into, it covers the columns between the ends of the carets. -/
theorem covers_iff (inside : Inside lines location) {number : Nat} (reaches : Reaches location number) {column : Nat}
    (positive : 0 < column) (within : column ≤ (lineAt lines number).length) :
    Covers location ⟨number, column⟩ ↔
      caretStart (startOf lines location) number ≤ column ∧
        column < caretStop (startOf lines location) (stopOf lines location) number (lineAt lines number).length := by
  cases range : location.stop with
  | none =>
    simp only [Reaches, range, Option.not_mem_none, false_and, exists_false, or_false] at reaches
    subst reaches
    rw [startOf_eq inside, stopOf_eq_none range]
    simp only [Covers, range, caretStart, caretStop, if_true]
    generalize location.start.spot = start
    obtain ⟨line, first⟩ := start
    simp only [Spot.mk.injEq, true_and]
    omega
  | some stop =>
    obtain ⟨_, after⟩ := inside.stop stop range
    rw [caretStop_of_range inside range reaches, startOf_eq inside]
    unfold Spot.Before at after
    simp only [Reaches, range, Option.mem_some_iff, exists_eq_left'] at reaches
    simp only [Covers, Spot.Before, range, caretStart]
    split_ifs <;> omega

/-- The carets stand under the characters between their ends; there is one where there are no such characters. -/
theorem exactly_between {covers : Nat → Prop} {first stop length : Nat} (positive : 0 < first)
    (ends : stop ≤ length + 1 ∨ stop = first + 1)
    (between : ∀ column, 0 < column → column ≤ length → (covers column ↔ first ≤ column ∧ column < stop))
    (column : Nat) :
    (0 < column ∧ column ≤ length ∧ covers column) ∨
        (∀ other, 0 < other → other ≤ length → ¬ covers other) ∧ column = first ↔
      first ≤ column ∧ column < first + max (stop - first) 1 := by
  by_cases some : first < stop ∧ first ≤ length
  · have coversFirst : covers first := (between first positive some.2).mpr ⟨Nat.le_refl _, some.1⟩
    constructor
    · rintro (⟨pos, le, covered⟩ | ⟨none, _⟩)
      · have := (between column pos le).mp covered
        omega
      · exact absurd coversFirst (none first positive some.2)
    · intro inRange
      have pos : 0 < column := by omega
      have le : column ≤ length := by omega
      exact .inl ⟨pos, le, (between column pos le).mpr (by omega)⟩
  · have none (other : Nat) (pos : 0 < other) (le : other ≤ length) : ¬ covers other := by
      intro covered
      have := (between other pos le).mp covered
      omega
    constructor
    · rintro (⟨pos, le, covered⟩ | ⟨_, rfl⟩)
      · exact absurd covered (none column pos le)
      · omega
    · intro inRange
      exact .inr ⟨none, by omega⟩

/-- The carets end in the line or right after it, or there is one only. -/
theorem caretStop_le (inside : Inside lines location) {number : Nat} (reaches : Reaches location number) :
    caretStop (startOf lines location) (stopOf lines location) number (lineAt lines number).length ≤
        (lineAt lines number).length + 1 ∨
      caretStop (startOf lines location) (stopOf lines location) number (lineAt lines number).length =
        caretStart (startOf lines location) number + 1 := by
  cases range : location.stop with
  | none =>
    simp only [Reaches, range, Option.not_mem_none, false_and, exists_false, or_false] at reaches
    right
    rw [startOf_eq inside, stopOf_eq_none range, caretStop, caretStart, if_pos reaches]
  | some stop =>
    left
    rw [caretStop_of_range inside range reaches]
    split
    · next last => exact last ▸ (inside.stop stop range).1.column_le
    · exact Nat.le_refl _

/-- The columns under which a line has carets are those that its mark counts. -/
theorem hasCaret_iff (inside : Inside lines location) {number : Nat} (reaches : Reaches location number)
    (column : Nat) :
    HasCaret location number (lineAt lines number).length column ↔
      (markAt lines location number).column ≤ column ∧
        column < (markAt lines location number).column + (markAt lines location number).count := by
  have between := exactly_between (markAt_column_pos lines location number) (caretStop_le inside reaches)
    (fun _ => covers_iff inside reaches) column
  refine Iff.trans ?_ between
  simp only [HasCaret, markAt, caretStart, startOf_eq inside]

/-! ## The frame -/

/-- What is written for a line is a block when it is marked just where the location reaches into it and its mark
    counts just the columns with carets. -/
theorem block_of_marks {settings : FrameSettings} {number : Nat} (member : number ∈ shown settings lines location)
    (reached : Reaches location number ↔
      firstMarked lines location ≤ number ∧ number ≤ finalMarked lines location)
    (counted : Reaches location number → ∀ column, HasCaret location number (lineAt lines number).length column ↔
      (markAt lines location number).column ≤ column ∧
        column < (markAt lines location number).column + (markAt lines location number).count) :
    Block lines location (gutterWidth settings lines location) number
      (renderRow (gutterWidth settings lines location) (rowOf lines location number)) := by
  have found := getElem?_of_mem_shown member
  by_cases reaches : Reaches location number
  · obtain ⟨row, carets, written, begins, shows, under⟩ := exists_rows_of_marked member (reached.mp reaches)
    rw [written]
    refine .marked found reaches begins shows fun index => ?_
    simp only [counted reaches]
    exact under index
  · obtain ⟨row, written, begins, shows⟩ := exists_row_of_plain member (mt reached.mpr reaches)
    rw [written]
    exact .plain found reaches begins shows

theorem block_renderRow (inside : Inside lines location) {settings : FrameSettings} {number : Nat}
    (member : number ∈ shown settings lines location) :
    Block lines location (gutterWidth settings lines location) number
      (renderRow (gutterWidth settings lines location) (rowOf lines location number)) :=
  block_of_marks member (reaches_iff inside number) (hasCaret_iff inside)

/-- The frame of a location in a text shows consecutive lines, among them all that the location reaches into.
    Cut at its newlines, it has for each of them a row, and after the row of one that is reached, and
    begins with `>`, a row of carets. These stand under just the characters that the location covers; in
    a line where it covers none there is one, at the column of the start in its line, at the first column in
    any other. -/
theorem carets_of_inside (settings : FrameSettings) (text : String) {location : Location}
    (inside : Inside (Text.sourceLines text.toList) location)
    (fits : settings.linesBelow.toNat + (Text.sourceLines text.toList).length < UInt64.size) :
    ∃ first last width, ∃ block : Nat → List (List Char),
      Text.pieces (render settings text location).toList =
        (List.range' first (last + 1 - first)).flatMap block ∧
      (∀ number, first ≤ number → number ≤ last →
        Block (Text.sourceLines text.toList) location width number (block number)) ∧
      ∀ number, Reaches location number → first ≤ number ∧ number ≤ last := by
  refine ⟨_, _, gutterWidth settings (Text.sourceLines text.toList) location, _,
    pieces_render settings text location fits, ?_, ?_⟩
  · intro number above below
    exact block_renderRow inside (mem_shown.mpr ⟨above, below⟩)
  · intro number reaches
    obtain ⟨first, final⟩ := (reaches_iff inside number).mp reaches
    exact mem_shown.mp (marked_shown fits (Text.sourceLines_length_pos _) first final)

section

def blankLine : String := "ab\ncd\n\nef"

/-- From the second character of the first line to the beginning of the last, over an empty line. -/
def toLastLine : Location := .range ⟨1, 2⟩ ⟨4, 1⟩

theorem inside_blankLine : Inside (Text.sourceLines blankLine.toList) toLastLine where
  start := ⟨by decide, by decide, by decide, by decide⟩
  stop := by
    rintro _ ⟨rfl⟩
    exact ⟨⟨by decide, by decide, by decide, by decide⟩, .inl (by decide)⟩

/-- The empty line has one caret, at its first column, and the last line is not marked. -/
theorem caret_of_blankLine :
    render {} blankLine toLastLine =
        "> 1 | ab\n    |  ^\n> 2 | cd\n    | ^^\n> 3 |\n    | ^\n  4 | ef" ∧
      Inside (Text.sourceLines blankLine.toList) toLastLine ∧
      ({} : FrameSettings).linesBelow.toNat + (Text.sourceLines blankLine.toList).length < UInt64.size ∧
      ∃ first last width, ∃ block : Nat → List (List Char),
        Text.pieces (render {} blankLine toLastLine).toList =
          (List.range' first (last + 1 - first)).flatMap block ∧
        first ≤ 3 ∧ 3 ≤ last ∧
        ∃ row carets, block 3 = [row, carets] ∧ ∀ index, carets[index]? = some '^' ↔ index = width + 5 := by
  have fits : ({} : FrameSettings).linesBelow.toNat + (Text.sourceLines blankLine.toList).length < UInt64.size := by
    decide
  have reaches : Reaches toLastLine 3 := .inr ⟨⟨4, 1⟩, rfl, .inl (by decide)⟩
  obtain ⟨first, last, width, block, pieces, blocks, all⟩ := carets_of_inside {} blankLine inside_blankLine fits
  obtain ⟨above, below⟩ := all 3 reaches
  refine ⟨by decide, inside_blankLine, fits, first, last, width, block, pieces, above, below, ?_⟩
  have own := blocks 3 above below
  generalize block 3 = rows at own ⊢
  cases own with
  | plain _ beyond => exact absurd reaches beyond
  | @marked source row carets found _ _ _ under =>
    have empty : some [] = some source := found
    cases empty
    refine ⟨row, carets, rfl, fun index => ?_⟩
    rw [under index]
    constructor
    · rintro ⟨column, rfl, ⟨pos, le, _⟩ | ⟨_, rfl⟩⟩
      · exact absurd pos (Nat.not_lt_of_le le)
      · rfl
    · rintro rfl
      exact ⟨1, rfl, .inr ⟨fun other pos le => absurd pos (Nat.not_lt_of_le le), rfl⟩⟩

end

end Frame

end Polyglot
