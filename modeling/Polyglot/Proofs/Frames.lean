import Mathlib.Tactic.SplitIfs
import Polyglot.Frame.Basic

/-!
# Frames in a text

Wherever a location points, its marks begin and end in lines of the text, and as long as words can count
the lines that are to be shown, the frame shows consecutive lines from above the first marked one to below the last
(`shown_eq`). Cut at its newlines, a frame is the row of each line that is shown, with a row
of carets after that of each marked one (`pieces_render`).
-/

namespace Polyglot.Frame

variable {settings : FrameSettings} {lines : List (List Char)} {location : Location}

/-! ## The marked lines -/

/-- The first line that a location marks. -/
def firstMarked (lines : List (List Char)) (location : Location) : Nat := (startOf lines location).line

/-- The last line that a location marks. -/
def finalMarked (lines : List (List Char)) (location : Location) : Nat :=
  lastMarked (startOf lines location) (stopOf lines location)

theorem bring_line_pos (lineCount : Nat) (nonempty : 0 < lineCount) (position : Position) :
    0 < (bring lineCount position).line := by
  simp only [bring]
  omega

theorem bring_line_le (lineCount : Nat) (position : Position) : (bring lineCount position).line ≤ lineCount :=
  Nat.min_le_right _ _

theorem bring_column_pos (lineCount : Nat) (position : Position) : 0 < (bring lineCount position).column := by
  simp only [bring]
  omega

theorem exclusiveEnd_line (lines : List (List Char)) {start stop : Spot} (ordered : start.line ≤ stop.line) :
    start.line ≤ (exclusiveEnd lines start stop).line ∧ (exclusiveEnd lines start stop).line ≤ stop.line := by
  unfold exclusiveEnd
  split
  · simp only
    omega
  · exact ⟨ordered, Nat.le_refl _⟩

/-- The end of a range is brought to the lines, and does not count in a line before that of the start. -/
theorem stopOf_of_range {stop : Position} (range : location.stop = some stop) :
    stopOf lines location =
      if (startOf lines location).line ≤ (bring lines.length stop).line then
        some (exclusiveEnd lines (startOf lines location) (bring lines.length stop))
      else none := by
  simp only [stopOf, range, Option.map_some, Option.filter_some, decide_eq_true_eq]
  split
  · rfl
  · rfl

theorem stopOf_line {stop : Spot} (found : stopOf lines location = some stop) :
    firstMarked lines location ≤ stop.line ∧ stop.line ≤ lines.length := by
  simp only [stopOf, Option.map_eq_some_iff, Option.filter_eq_some_iff, decide_eq_true_eq] at found
  obtain ⟨_, ⟨⟨position, _, rfl⟩, ordered⟩, rfl⟩ := found
  obtain ⟨after, before⟩ := exclusiveEnd_line lines ordered
  exact ⟨after, Nat.le_trans before (bring_line_le _ _)⟩

/-- The marked lines are lines of the text. -/
theorem marked_bounds (nonempty : 0 < lines.length) (location : Location) :
    0 < firstMarked lines location ∧ firstMarked lines location ≤ finalMarked lines location ∧
      finalMarked lines location ≤ lines.length := by
  refine ⟨bring_line_pos _ nonempty _, ?_⟩
  unfold finalMarked
  cases found : stopOf lines location with
  | none => exact ⟨Nat.le_refl _, bring_line_le _ _⟩
  | some stop => exact stopOf_line found

/-- The column of the first caret in a marked line. -/
def caretStart (start : Spot) (number : Nat) : Nat := if number = start.line then start.column else 1

/-- The column that the carets in a marked line end before: that of the end in its line, else the first past
    the line. -/
def caretStop (start : Spot) (stop : Option Spot) (number length : Nat) : Nat :=
  match stop with
  | none => start.column + 1
  | some spot => if number = spot.line then spot.column else length + 1

/-- The lines from the first marked one to the last have carets between two columns, and one caret at least. -/
theorem markOf_eq {start : Spot} {stop : Option Spot} (ordered : ∀ spot ∈ stop, start.line ≤ spot.line)
    (number length : Nat) :
    markOf start stop number length =
      if start.line ≤ number ∧ number ≤ lastMarked start stop then
        some ⟨caretStart start number, max (caretStop start stop number length - caretStart start number) 1⟩
      else none := by
  cases stop with
  | none =>
    have single : start.column + 1 - start.column = 1 := Nat.add_sub_cancel_left _ _
    by_cases here : number = start.line
    · subst here
      simp [markOf, lastMarked, caretStart, caretStop, single]
    · have outside : ¬ (start.line ≤ number ∧ number ≤ start.line) := by omega
      simp [markOf, lastMarked, here, outside]
  | some spot =>
    have after := ordered spot rfl
    by_cases within : start.line ≤ number ∧ number ≤ lastMarked start (some spot)
    · rw [if_pos within]
      simp only [lastMarked] at within
      simp only [markOf, caretStart, caretStop]
      split_ifs <;> first | rfl | omega
    · rw [if_neg within]
      simp only [lastMarked] at within
      simp only [markOf]
      split_ifs <;> first | rfl | omega

theorem stopOf_ordered (lines : List (List Char)) (location : Location) :
    ∀ spot ∈ stopOf lines location, (startOf lines location).line ≤ spot.line :=
  fun _ found => (stopOf_line found).1

/-! ## The shown lines -/

/-- The number of the first line shown. -/
def firstNumber (settings : FrameSettings) (lines : List (List Char)) (location : Location) : Nat :=
  firstShown settings (startOf lines location)

/-- The number of the last line shown. -/
def lastNumber (settings : FrameSettings) (lines : List (List Char)) (location : Location) : Nat :=
  lastShown settings lines.length (startOf lines location) (stopOf lines location)

/-- The numbers of the lines that are shown. -/
def shown (settings : FrameSettings) (lines : List (List Char)) (location : Location) : List Nat :=
  let first := firstNumber settings lines location
  List.range' first (lastNumber settings lines location + 1 - first)

theorem mem_shown {number : Nat} : number ∈ shown settings lines location ↔
    firstNumber settings lines location ≤ number ∧ number ≤ lastNumber settings lines location := by
  simp only [shown, List.mem_range'_1]
  omega

theorem firstNumber_pos (settings : FrameSettings) (lines : List (List Char)) (location : Location) :
    0 < firstNumber settings lines location :=
  Nat.le_max_right _ _

theorem firstNumber_le (nonempty : 0 < lines.length) (settings : FrameSettings) (location : Location) :
    firstNumber settings lines location ≤ firstMarked lines location := by
  obtain ⟨positive, _⟩ := marked_bounds nonempty location
  unfold firstNumber firstShown
  exact Nat.max_le.mpr ⟨Nat.sub_le _ _, positive⟩

theorem lastNumber_le (settings : FrameSettings) (lines : List (List Char)) (location : Location) :
    lastNumber settings lines location ≤ lines.length :=
  Nat.min_le_right _ _

/-- Where a word can count up to the last line that is to be shown, this one is as many lines below the last
    marked one as the settings say, or the last of the text. -/
theorem lastNumber_eq_of_counted
    (counted : finalMarked lines location + settings.linesBelow.toNat < UInt64.size) :
    lastNumber settings lines location =
      min (finalMarked lines location + settings.linesBelow.toNat) lines.length := by
  unfold lastNumber lastShown wordSum
  rw [← finalMarked, Nat.mod_eq_of_lt counted]

/-- All marked lines are then shown. -/
theorem marked_shown_of_counted (nonempty : 0 < lines.length)
    (counted : finalMarked lines location + settings.linesBelow.toNat < UInt64.size) {number : Nat}
    (first : firstMarked lines location ≤ number) (final : number ≤ finalMarked lines location) :
    number ∈ shown settings lines location := by
  have above := firstNumber_le nonempty settings location
  have below := lastNumber_eq_of_counted counted
  obtain ⟨_, _, inText⟩ := marked_bounds nonempty location
  rw [mem_shown, below]
  omega

theorem counted_of_fits (fits : settings.linesBelow.toNat + lines.length < UInt64.size) (nonempty : 0 < lines.length)
    (location : Location) : finalMarked lines location + settings.linesBelow.toNat < UInt64.size := by
  obtain ⟨_, _, inText⟩ := marked_bounds nonempty location
  exact Nat.lt_of_le_of_lt (by omega) fits

theorem marked_shown (fits : settings.linesBelow.toNat + lines.length < UInt64.size) (nonempty : 0 < lines.length)
    {location : Location} {number : Nat} (first : firstMarked lines location ≤ number)
    (final : number ≤ finalMarked lines location) : number ∈ shown settings lines location :=
  marked_shown_of_counted nonempty (counted_of_fits fits nonempty location) first final

/-! ## The rows -/

/-- A line by its number. -/
def lineAt (lines : List (List Char)) (number : Nat) : List Char := lines.getD (number - 1) []

theorem lineAt_of_getElem? {line : List Char} {number : Nat} (found : lines[number - 1]? = some line) :
    lineAt lines number = line := by
  rw [lineAt, List.getD_eq_getElem?_getD, found, Option.getD_some]

theorem getElem?_lineAt {number : Nat} (positive : 0 < number) (le : number ≤ lines.length) :
    lines[number - 1]? = some (lineAt lines number) := by
  rw [lineAt, List.getD_eq_getElem?_getD, List.getElem?_eq_getElem (by omega), Option.getD_some]

/-- The row of a line when it is shown. -/
def rowOf (lines : List (List Char)) (location : Location) (number : Nat) : Row :=
  let line := lineAt lines number
  ⟨number, line, markOf (startOf lines location) (stopOf lines location) number line.length⟩

/-- The mark of a line when it is marked. -/
def markAt (lines : List (List Char)) (location : Location) (number : Nat) : Mark :=
  let first := caretStart (startOf lines location) number
  let stop := caretStop (startOf lines location) (stopOf lines location) number (lineAt lines number).length
  ⟨first, max (stop - first) 1⟩

theorem mark_rowOf (lines : List (List Char)) (location : Location) (number : Nat) :
    (rowOf lines location number).mark =
      if firstMarked lines location ≤ number ∧ number ≤ finalMarked lines location then
        some (markAt lines location number)
      else none :=
  markOf_eq (stopOf_ordered lines location) number (lineAt lines number).length

theorem markAt_column_pos (lines : List (List Char)) (location : Location) (number : Nat) :
    0 < (markAt lines location number).column := by
  simp only [markAt, caretStart]
  split
  · exact bring_column_pos _ _
  · exact Nat.zero_lt_one

theorem getElem?_of_mem_shown {number : Nat} (member : number ∈ shown settings lines location) :
    lines[number - 1]? = some (lineAt lines number) := by
  obtain ⟨above, below⟩ := mem_shown.mp member
  have positive := firstNumber_pos settings lines location
  have inText := lastNumber_le settings lines location
  exact getElem?_lineAt (by omega) (by omega)

theorem rows_eq (settings : FrameSettings) (lines : List (List Char)) (location : Location) :
    rows settings lines location = (shown settings lines location).map (rowOf lines location) := by
  have positive := firstNumber_pos settings lines location
  have inText := lastNumber_le settings lines location
  apply List.ext_getElem
  · simp only [rows, shown, List.length_map, List.length_take, List.length_drop, List.length_zipIdx,
      List.length_range']
    unfold firstNumber lastNumber at *
    omega
  · intro index below within
    simp only [shown, List.length_map, List.length_range'] at within
    have numbered : 1 + (firstNumber settings lines location - 1 + index) =
        firstNumber settings lines location + index := by omega
    have inLines : firstNumber settings lines location - 1 + index < lines.length := by omega
    simp only [rows, shown, List.getElem_map, List.getElem_take, List.getElem_drop, List.getElem_zipIdx,
      List.getElem_range', rowOf, lineAt, Nat.one_mul, ← numbered, Nat.add_sub_cancel_left,
      List.getD_eq_getElem?_getD, List.getElem?_eq_getElem inLines, Option.getD_some]
    rfl

/-! ## How the rows are written -/

theorem digits_length_le {number bound : Nat} (le : number ≤ bound) :
    (toString number).length ≤ (toString bound).length := by
  simp only [Nat.toString_eq_repr, ← String.length_toList, Nat.toList_repr]
  have within : bound < 10 ^ (Nat.toDigits 10 bound).length :=
    (Nat.length_toDigits_le_iff (by decide) Nat.length_toDigits_pos).mp (Nat.le_refl _)
  exact (Nat.length_toDigits_le_iff (by decide) Nat.length_toDigits_pos).mpr (Nat.lt_of_le_of_lt le within)

/-- The gutters of all shown lines are of one width. -/
theorem gutter_length {number : Nat} (le : number ≤ lastNumber settings lines location) :
    (gutter (gutterWidth settings lines location) number).length = gutterWidth settings lines location := by
  have fits : (toString number).length ≤ gutterWidth settings lines location := digits_length_le le
  rw [← String.length_toList] at fits
  simp only [gutter, List.length_append, List.length_replicate]
  omega

theorem isDigit_of_mem_toString {number : Nat} {c : Char} (member : c ∈ (toString number).toList) :
    c.isDigit = true := by
  rw [Nat.toString_eq_repr, Nat.toList_repr] at member
  exact Nat.isDigit_of_mem_toDigits (by decide) (by decide) member

theorem renderRow_of_marked {row : Row} {mark : Mark} (marked : row.mark = some mark) (width : Nat) :
    renderRow width row = [sourceRow width row, caretRow width row.line mark] := by
  rw [renderRow, marked]
  rfl

theorem renderRow_of_plain {row : Row} (plain : row.mark = none) (width : Nat) :
    renderRow width row = [sourceRow width row] := by
  rw [renderRow, plain]
  rfl

theorem sourceRow_of_marked {row : Row} {mark : Mark} (marked : row.mark = some mark) (width : Nat) :
    ['>', ' '] ++ gutter width row.number ++ [' ', '|'] <+: sourceRow width row := by
  rw [sourceRow, marked]
  exact List.prefix_append _ _

theorem sourceRow_of_plain {row : Row} (plain : row.mark = none) (width : Nat) :
    [' ', ' '] ++ gutter width row.number ++ [' ', '|'] <+: sourceRow width row := by
  rw [sourceRow, plain]
  exact List.prefix_append _ _

theorem newline_not_mem_replicate {c : Char} (other : '\n' ≠ c) (count : Nat) : '\n' ∉ List.replicate count c :=
  fun member => other (List.eq_of_mem_replicate member)

/-- A gutter has digits and blanks only. -/
theorem not_mem_gutter {c : Char} (blank : c ≠ ' ') (digit : c.isDigit = false) (width number : Nat) :
    c ∉ gutter width number := by
  intro member
  rcases List.mem_append.mp member with member | member
  · exact blank (List.eq_of_mem_replicate member)
  · rw [isDigit_of_mem_toString member] at digit
    cases digit

/-- Before the carets stand spaces and tabs. -/
theorem blank_of_mem_spacing {line : List Char} {column : Nat} {c : Char} (member : c ∈ spacing line column) :
    c = ' ' ∨ c = '\t' := by
  rcases List.mem_append.mp member with member | member
  · obtain ⟨other, _, rfl⟩ := List.mem_map.mp member
    split
    · exact .inr rfl
    · exact .inl rfl
  · exact .inl (List.eq_of_mem_replicate member)

theorem newline_not_mem_spacing (line : List Char) (column : Nat) : '\n' ∉ spacing line column := by
  intro member
  rcases blank_of_mem_spacing member with same | same <;> cases same

theorem newline_not_mem_sourceRow (width : Nat) {row : Row} (free : '\n' ∉ row.line) :
    '\n' ∉ sourceRow width row := by
  simp only [sourceRow, List.mem_append, not_or]
  refine ⟨⟨⟨?_, not_mem_gutter (by decide) (by decide) _ _⟩, by decide⟩, ?_⟩
  · split <;> decide
  · split
    · exact List.not_mem_nil
    · exact List.not_mem_cons_of_ne_of_not_mem (by decide) free

theorem newline_not_mem_caretRow (width : Nat) (line : List Char) (mark : Mark) :
    '\n' ∉ caretRow width line mark := by
  simp only [caretRow, List.mem_append, not_or]
  exact ⟨⟨⟨⟨by decide, newline_not_mem_replicate (by decide) _⟩, by decide⟩, newline_not_mem_spacing _ _⟩,
    newline_not_mem_replicate (by decide) _⟩

theorem newline_not_mem_renderRow (width : Nat) {row : Row} (free : '\n' ∉ row.line) :
    ∀ part ∈ renderRow width row, '\n' ∉ part := by
  intro part member
  rcases List.mem_cons.mp member with rfl | member
  · exact newline_not_mem_sourceRow width free
  · obtain ⟨mark, _, rfl⟩ := Option.map_eq_some_iff.mp (Option.mem_toList.mp member)
    exact newline_not_mem_caretRow width row.line mark

theorem newline_not_mem_lineAt {text : List Char} (number : Nat) :
    '\n' ∉ lineAt (Text.sourceLines text) number := by
  unfold lineAt
  rw [List.getD_eq_getElem?_getD]
  cases found : (Text.sourceLines text)[number - 1]? with
  | none => exact List.not_mem_nil
  | some line => exact Text.newline_not_mem_sourceLine (List.mem_of_getElem? found)

/-- Cut at its newlines, a frame that shows a line is what is written for each line shown, one after another. -/
theorem pieces_render_of_mem {settings : FrameSettings} {text : String} {location : Location} {number : Nat}
    (present : number ∈ shown settings (Text.sourceLines text.toList) location) :
    Text.pieces (render settings text location).toList =
      (shown settings (Text.sourceLines text.toList) location).flatMap fun number =>
        renderRow (gutterWidth settings (Text.sourceLines text.toList) location)
          (rowOf (Text.sourceLines text.toList) location number) := by
  simp only [render, rows_eq, List.flatMap_map, String.toList_ofList]
  refine Text.pieces_intercalate ?_ ?_
  · intro empty
    have := List.flatMap_eq_nil_iff.mp empty _ present
    cases this
  · intro part member
    obtain ⟨number, _, written⟩ := List.mem_flatMap.mp member
    exact newline_not_mem_renderRow _ (newline_not_mem_lineAt number) part written

theorem pieces_render (settings : FrameSettings) (text : String) (location : Location)
    (fits : settings.linesBelow.toNat + (Text.sourceLines text.toList).length < UInt64.size) :
    Text.pieces (render settings text location).toList =
      (shown settings (Text.sourceLines text.toList) location).flatMap fun number =>
        renderRow (gutterWidth settings (Text.sourceLines text.toList) location)
          (rowOf (Text.sourceLines text.toList) location number) := by
  have nonempty := Text.sourceLines_length_pos text.toList
  obtain ⟨_, ordered, _⟩ := marked_bounds nonempty location
  exact pieces_render_of_mem (marked_shown fits nonempty (Nat.le_refl _) ordered)

/-! ## Columns -/

theorem spacing_length (line : List Char) (column : Nat) : (spacing line column).length = column - 1 := by
  simp only [spacing, List.length_append, List.length_map, List.length_replicate, List.length_take]
  omega

/-- A character that stands nowhere in front of its repetitions stands just where these are. -/
theorem getElem?_append_replicate_eq_some_iff {α : Type} {c : α} {front : List α} (free : c ∉ front)
    (count index : Nat) :
    (front ++ List.replicate count c)[index]? = some c ↔ front.length ≤ index ∧ index < front.length + count := by
  by_cases before : index < front.length
  · rw [List.getElem?_append_left before]
    constructor
    · exact fun found => absurd (List.mem_of_getElem? found) free
    · omega
  · rw [List.getElem?_append_right (Nat.le_of_not_lt before), List.getElem?_replicate]
    split
    · exact ⟨fun _ => by omega, fun _ => rfl⟩
    · exact ⟨nofun, fun _ => by omega⟩

theorem caret_not_mem_front (width : Nat) (line : List Char) (column : Nat) :
    '^' ∉ [' ', ' '] ++ List.replicate width ' ' ++ [' ', '|', ' '] ++ spacing line column := by
  simp only [List.mem_append, not_or]
  refine ⟨⟨⟨by decide, fun member => ?_⟩, by decide⟩, fun member => ?_⟩
  · cases List.eq_of_mem_replicate member
  · rcases blank_of_mem_spacing member with same | same <;> cases same

/-- The carets of a row are those that its mark counts, from the column of its first. -/
theorem caretRow_eq_caret_iff {mark : Mark} (positive : 0 < mark.column) (width : Nat) (line : List Char)
    (index : Nat) :
    (caretRow width line mark)[index]? = some '^' ↔
      ∃ column, index = width + 4 + column ∧ mark.column ≤ column ∧ column < mark.column + mark.count := by
  rw [caretRow, getElem?_append_replicate_eq_some_iff (caret_not_mem_front width line mark.column)]
  simp only [List.length_append, List.length_replicate, spacing_length, List.length_cons, List.length_nil]
  constructor
  · rintro ⟨after, before⟩
    exact ⟨index - (width + 4), by omega, by omega, by omega⟩
  · rintro ⟨column, rfl, after, before⟩
    omega

/-- A line stands in its row from the column after the gutter. -/
theorem getElem?_sourceRow {width : Nat} {row : Row} (gutters : (gutter width row.number).length = width)
    {column : Nat} (positive : 0 < column) :
    (sourceRow width row)[width + 4 + column]? = row.line[column - 1]? := by
  have front : ((if row.mark.isSome then ['>', ' '] else [' ', ' ']) ++ gutter width row.number ++ [' ', '|']).length =
      width + 4 := by
    split <;> simp only [List.length_append, gutters, List.length_cons, List.length_nil] <;> omega
  rw [sourceRow, List.getElem?_append_right (by omega), front, Nat.add_sub_cancel_left]
  obtain ⟨earlier, rfl⟩ := Nat.exists_eq_add_of_le' positive
  by_cases empty : row.line = []
  · rw [if_pos empty, empty]
    rfl
  · rw [if_neg empty, List.getElem?_cons_succ, Nat.add_sub_cancel]

/-- A marked line that is shown has a row, in which the line stands, and a row of just the carets that its mark
    counts. -/
theorem exists_rows_of_marked {number : Nat} (member : number ∈ shown settings lines location)
    (marked : firstMarked lines location ≤ number ∧ number ≤ finalMarked lines location) :
    ∃ row carets,
      renderRow (gutterWidth settings lines location) (rowOf lines location number) = [row, carets] ∧
      ['>', ' '] ++ gutter (gutterWidth settings lines location) number ++ [' ', '|'] <+: row ∧
      (∀ column, 0 < column →
        row[gutterWidth settings lines location + 4 + column]? = (lineAt lines number)[column - 1]?) ∧
      ∀ index, carets[index]? = some '^' ↔ ∃ column, index = gutterWidth settings lines location + 4 + column ∧
        (markAt lines location number).column ≤ column ∧
        column < (markAt lines location number).column + (markAt lines location number).count := by
  have gutters : (gutter (gutterWidth settings lines location) (rowOf lines location number).number).length =
      gutterWidth settings lines location := gutter_length (mem_shown.mp member).2
  have mark := mark_rowOf lines location number
  rw [if_pos marked] at mark
  exact ⟨_, _, renderRow_of_marked mark _, sourceRow_of_marked mark _, fun _ => getElem?_sourceRow gutters,
    caretRow_eq_caret_iff (markAt_column_pos lines location number) _ _⟩

/-- A line that is shown and not marked has a row, in which the line stands. -/
theorem exists_row_of_plain {number : Nat} (member : number ∈ shown settings lines location)
    (unmarked : ¬ (firstMarked lines location ≤ number ∧ number ≤ finalMarked lines location)) :
    ∃ row,
      renderRow (gutterWidth settings lines location) (rowOf lines location number) = [row] ∧
      [' ', ' '] ++ gutter (gutterWidth settings lines location) number ++ [' ', '|'] <+: row ∧
      ∀ column, 0 < column →
        row[gutterWidth settings lines location + 4 + column]? = (lineAt lines number)[column - 1]? := by
  have gutters : (gutter (gutterWidth settings lines location) (rowOf lines location number).number).length =
      gutterWidth settings lines location := gutter_length (mem_shown.mp member).2
  have mark := mark_rowOf lines location number
  rw [if_neg unmarked] at mark
  exact ⟨_, renderRow_of_plain mark _, sourceRow_of_plain mark _, fun _ => getElem?_sourceRow gutters⟩

end Polyglot.Frame
