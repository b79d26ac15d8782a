import Polyglot.Proofs.Excerpt

/-!
# Carets on a display

A display gives each character of a row a cell of its own, but a tab reaches to the next multiple of the tab width.
Characters that have tabs in the same places take the same cells, however wide tabs are (`cells_eq_of_tabs`). Before
the first caret of a row stand as many characters as in the row above before the column that it marks, with
tabs in the same places, and so it is shown under the character of that column (`carets_aligned`).
-/

namespace Polyglot.Frame

/-! ## Cells -/

/-- The first cell after a character that begins in the given one. -/
def advance (tab cell : Nat) (c : Char) : Nat := if c = '\t' then (cell / tab + 1) * tab else cell + 1

/-- The first cell after characters that begin a row. -/
def cells (tab : Nat) (chars : List Char) : Nat := chars.foldl (advance tab) 0

/-- What a row has before an index, continued with spaces where it ends earlier. -/
def leading (row : List Char) (index : Nat) : List Char := (row.take index).rightpad index ' '

/-- The cell in which a row has the character at an index. -/
def cellAt (tab : Nat) (row : List Char) (index : Nat) : Nat := cells tab (leading row index)

/-- Which of some characters are tabs. -/
def tabs (chars : List Char) : List Bool := chars.map fun c => decide (c = '\t')

theorem advance_congr {c other : Char} (same : c = '\t' ↔ other = '\t') (tab cell : Nat) :
    advance tab cell c = advance tab cell other := by
  simp only [advance, same]

theorem foldl_advance_eq_of_tabs {first second : List Char} (same : tabs first = tabs second) (tab cell : Nat) :
    first.foldl (advance tab) cell = second.foldl (advance tab) cell := by
  -- From whichever cell both begin, the first characters of each end in one.
  induction first generalizing second cell with
  | nil =>
    rw [List.map_eq_nil_iff.mp same.symm]
  | cons c rest ih =>
    cases second with
    | nil => cases same
    | cons other more =>
      obtain ⟨here, later⟩ := List.cons.inj same
      rw [List.foldl_cons, List.foldl_cons, advance_congr (decide_eq_decide.mp here), ih later]

theorem cells_eq_of_tabs {first second : List Char} (same : tabs first = tabs second) (tab : Nat) :
    cells tab first = cells tab second :=
  foldl_advance_eq_of_tabs same tab 0

@[simp] theorem tabs_append (first second : List Char) : tabs (first ++ second) = tabs first ++ tabs second :=
  List.map_append

theorem tabs_of_free {chars : List Char} (free : '\t' ∉ chars) : tabs chars = List.replicate chars.length false := by
  refine List.eq_replicate_iff.mpr ⟨List.length_map _, fun isTab member => ?_⟩
  obtain ⟨c, inside, rfl⟩ := List.mem_map.mp member
  exact decide_eq_false fun same => free (same ▸ inside)

/-! ## What stands before an index -/

theorem leading_append (front rest : List Char) (count : Nat) :
    leading (front ++ rest) (front.length + count) = front ++ leading rest count := by
  simp only [leading, List.rightpad, List.take_length_add_append, List.length_append, List.append_assoc,
    Nat.add_sub_add_left]

theorem leading_nil (count : Nat) : leading [] count = List.replicate count ' ' := by
  simp only [leading, List.rightpad, List.take_nil, List.length_nil, Nat.sub_zero, List.nil_append]

theorem leading_zero (row : List Char) : leading row 0 = [] := by
  simp only [leading, List.rightpad, List.take_zero, List.length_nil, Nat.sub_self, List.replicate_zero,
    List.append_nil]

theorem getElem?_leading {index count : Nat} (within : index < count) (row : List Char) :
    (leading row count)[index]? = some (row[index]?.getD ' ') := by
  rw [leading, List.rightpad, List.getElem?_append, List.length_take]
  split
  · next inRow =>
    rw [List.getElem?_take_of_lt within, List.getElem?_eq_getElem (by omega), Option.getD_some]
  · next past =>
    rw [List.getElem?_replicate_of_lt (by omega), List.getElem?_eq_none (by omega), Option.getD_none]

/-- Before the first caret stands what the line has before its column, with a space for each other character. -/
theorem spacing_eq_map (line : List Char) (column : Nat) :
    spacing line column = (leading line (column - 1)).map fun c => if c = '\t' then '\t' else ' ' := by
  simp only [spacing, leading, List.rightpad, List.map_append, List.map_replicate]
  rfl

theorem eq_tab_iff_of_spaced (c : Char) : (if c = '\t' then '\t' else ' ') = '\t' ↔ c = '\t' := by
  split
  · next same => exact iff_of_true rfl same
  · next other => exact iff_of_false (by decide) other

theorem tabs_spacing (line : List Char) (column : Nat) :
    tabs (spacing line column) = tabs (leading line (column - 1)) := by
  rw [spacing_eq_map, tabs, List.map_map]
  exact List.map_congr_left fun c _ => decide_eq_decide.mpr (eq_tab_iff_of_spaced c)

/-- Where the carets begin at a column, a tab stands at an earlier one just if the line has one there. -/
theorem getElem?_spacing_eq_tab_iff {index column : Nat} (earlier : index < column - 1) (chars : List Char) :
    (spacing chars column)[index]? = some '\t' ↔ chars[index]? = some '\t' := by
  rw [spacing_eq_map, List.getElem?_map, getElem?_leading earlier, Option.map_some, Option.some_inj,
    eq_tab_iff_of_spaced]
  cases chars[index]? with
  | none => simp
  | some c => rw [Option.getD_some, Option.some_inj]

/-! ## Rows -/

variable {settings : FrameSettings} {lines : List (List Char)} {location : Location}

/-- After the bar stands a blank: that of the row, or the space by which the row of an empty line is continued. -/
theorem leading_afterBar (line : List Char) (count : Nat) :
    leading (if line = [] then [] else ' ' :: line) (1 + count) = [' '] ++ leading line count := by
  split
  · next empty => rw [empty, leading_nil, leading_nil, Nat.add_comm, List.replicate_succ, List.singleton_append]
  · exact leading_append [' '] line count

/-- The row of a line has before a column of the line a front without tabs, and what the line has before. -/
theorem leading_sourceRow {width : Nat} {row : Row} (gutters : (gutter width row.number).length = width)
    {column : Nat} (positive : 0 < column) :
    ∃ front, '\t' ∉ front ∧ front.length = width + 5 ∧
      leading (sourceRow width row) (width + 4 + column) = front ++ leading row.line (column - 1) := by
  obtain ⟨sign, two, free, written⟩ : ∃ sign : List Char, sign.length = 2 ∧ '\t' ∉ sign ∧
      sourceRow width row =
        sign ++ gutter width row.number ++ [' ', '|'] ++ if row.line = [] then [] else ' ' :: row.line := by
    refine ⟨if row.mark.isSome then ['>', ' '] else [' ', ' '], ?_, ?_, rfl⟩ <;> split <;> decide
  have length : (sign ++ gutter width row.number ++ [' ', '|']).length = width + 4 := by
    simp only [List.length_append, two, gutters, List.length_cons, List.length_nil]
    omega
  refine ⟨sign ++ gutter width row.number ++ [' ', '|'] ++ [' '], ?_, ?_, ?_⟩
  · simp only [List.mem_append, not_or]
    exact ⟨⟨⟨free, not_mem_gutter (by decide) (by decide) width row.number⟩, by decide⟩, by decide⟩
  · rw [List.length_append, length, List.length_singleton]
  · have index : width + 4 + column =
        (sign ++ gutter width row.number ++ [' ', '|']).length + (1 + (column - 1)) := by omega
    rw [written, index, leading_append, leading_afterBar, ← List.append_assoc]

theorem caretFront_length (width : Nat) :
    ([' ', ' '] ++ List.replicate width ' ' ++ [' ', '|', ' ']).length = width + 5 := by
  simp only [List.length_append, List.length_replicate, List.length_cons, List.length_nil]
  omega

/-- The row of the carets has before its first caret a front without tabs, and the spacing. -/
theorem leading_caretRow {mark : Mark} (positive : 0 < mark.column) (width : Nat) (line : List Char) :
    ∃ front, '\t' ∉ front ∧ front.length = width + 5 ∧
      leading (caretRow width line mark) (width + 4 + mark.column) = front ++ spacing line mark.column := by
  refine ⟨[' ', ' '] ++ List.replicate width ' ' ++ [' ', '|', ' '], ?_, caretFront_length width, ?_⟩
  · simp only [List.mem_append, not_or]
    refine ⟨⟨by decide, fun member => ?_⟩, by decide⟩
    cases List.eq_of_mem_replicate member
  · have index : width + 4 + mark.column =
        ([' ', ' '] ++ List.replicate width ' ' ++ [' ', '|', ' '] ++ spacing line mark.column).length + 0 := by
      rw [List.length_append, caretFront_length, spacing_length]
      omega
    rw [caretRow, index, leading_append, leading_zero, List.append_nil]

/-- The first caret of a row is shown in the cell in which the row of the line has the column that it marks. -/
theorem cellAt_caret {width : Nat} {row : Row} (gutters : (gutter width row.number).length = width) {mark : Mark}
    (positive : 0 < mark.column) (tab : Nat) :
    cellAt tab (caretRow width row.line mark) (width + 4 + mark.column) =
      cellAt tab (sourceRow width row) (width + 4 + mark.column) := by
  obtain ⟨front, free, length, written⟩ := leading_sourceRow gutters positive
  obtain ⟨blank, clear, sameLength, spaced⟩ := leading_caretRow positive width row.line
  -- Neither front has a tab, and they are of one length.
  refine cells_eq_of_tabs ?_ tab
  rw [written, spaced, tabs_append, tabs_append, tabs_of_free free, tabs_of_free clear, length, sameLength, tabs_spacing]

/-! ## Frames -/

/-- A row of carets under the row of a line, both with gutters of one width: the first caret is at the given column of
    the line, before it a tab stands at each column where the line has one and nowhere else, and however wide
    tabs are, it is shown in the cell in which the row of the line has this column. -/
structure Aligned (width column : Nat) (source row carets : List Char) : Prop where
  line_eq : ∀ place, 0 < place → row[width + 4 + place]? = source[place - 1]?
  caret : carets[width + 4 + column]? = some '^'
  first : ∀ index < width + 4 + column, carets[index]? ≠ some '^'
  tabs_eq : ∀ place, 0 < place → place < column →
    (carets[width + 4 + place]? = some '\t' ↔ source[place - 1]? = some '\t')
  cell_eq : ∀ tab, cellAt tab carets (width + 4 + column) = cellAt tab row (width + 4 + column)

theorem getElem?_caretRow_of_lt {mark : Mark} {place : Nat} (positive : 0 < place) (earlier : place < mark.column)
    (width : Nat) (line : List Char) :
    (caretRow width line mark)[width + 4 + place]? = (spacing line mark.column)[place - 1]? := by
  rw [caretRow, List.append_assoc _ (spacing line mark.column), List.getElem?_append_right (by rw [caretFront_length]; omega),
    caretFront_length, List.getElem?_append_left (by rw [spacing_length]; omega)]
  congr 1
  omega

theorem aligned_of_mark {width : Nat} {row : Row} (gutters : (gutter width row.number).length = width) {mark : Mark}
    (positive : 0 < mark.column) (some : 0 < mark.count) :
    Aligned width mark.column row.line (sourceRow width row) (caretRow width row.line mark) where
  line_eq _ inLine := getElem?_sourceRow gutters inLine
  caret := (caretRow_eq_caret_iff positive width row.line _).mpr ⟨mark.column, rfl, Nat.le_refl _, by omega⟩
  first index earlier found := by
    obtain ⟨column, rfl, after, -⟩ := (caretRow_eq_caret_iff positive width row.line _).mp found
    omega
  tabs_eq place inLine earlier := by
    rw [getElem?_caretRow_of_lt inLine earlier]
    exact getElem?_spacing_eq_tab_iff (by omega) row.line
  cell_eq := cellAt_caret gutters positive

theorem ShowsLine.gutterOf_length {sign line row : List Char} {width number : Nat}
    (signs : sign = ['>', ' '] ∨ sign = [' ', ' ']) (shows : ShowsLine sign width number line row) :
    (gutterOf row).length = width + 3 := by
  obtain ⟨rest, rfl⟩ := shows.begins
  have aligned := shows.aligned
  have two : sign.length = 2 := by rcases signs with rfl | rfl <;> rfl
  have parts : sign ++ (toString number).toList.leftpad width ' ' ++ [' ', '|'] ++ rest =
      (sign ++ gutter width number ++ [' ']) ++ '|' :: rest := by
    simp only [gutter, List.leftpad, List.append_assoc, List.cons_append, List.nil_append]
  rw [parts, gutterOf_append_bar (bar_not_mem_front signs width number)]
  simp only [gutter, List.length_append, two, List.length_replicate, String.length_toList, List.length_singleton]
  omega

theorem ShowsCarets.gutterOf_length {width : Nat} {row : List Char} (shows : ShowsCarets width row) :
    (gutterOf row).length = width + 3 := by
  obtain ⟨rest, rfl⟩ := shows.begins
  have free : '|' ∉ [' ', ' '] ++ List.replicate width ' ' ++ [' '] := by
    simp only [List.mem_append, not_or]
    refine ⟨⟨by decide, fun member => ?_⟩, by decide⟩
    cases List.eq_of_mem_replicate member
  have parts : [' ', ' '] ++ List.replicate width ' ' ++ [' ', '|', ' '] ++ rest =
      ([' ', ' '] ++ List.replicate width ' ' ++ [' ']) ++ '|' :: ' ' :: rest := by
    simp only [List.append_assoc, List.cons_append, List.nil_append]
  rw [parts, gutterOf_append_bar free]
  simp only [List.length_append, List.length_replicate, List.length_cons, List.length_nil]
  omega

theorem Part.gutterOf_length {width number : Nat} {marked : Prop} {rows : List (List Char)}
    (part : Part lines width number marked rows) : ∀ row ∈ rows, (gutterOf row).length = width + 3 := by
  cases part with
  | marked _ _ shows under =>
    intro shown member
    rcases List.mem_pair.mp member with rfl | rfl
    · exact shows.gutterOf_length (.inl rfl)
    · exact under.gutterOf_length
  | plain _ _ shows =>
    intro shown member
    rw [List.mem_singleton.mp member]
    exact shows.gutterOf_length (.inr rfl)

theorem markAt_column (lines : List (List Char)) (location : Location) (number : Nat) :
    (markAt lines location number).column =
      if number = firstMarked lines location then max location.start.column.toNat 1 else 1 := rfl

theorem aligned_renderRow {number : Nat} (member : number ∈ shown settings lines location)
    (marked : firstMarked lines location ≤ number ∧ number ≤ finalMarked lines location) :
    ∃ row carets, renderRow (gutterWidth settings lines location) (rowOf lines location number) = [row, carets] ∧
      Aligned (gutterWidth settings lines location)
        (if number = firstMarked lines location then max location.start.column.toNat 1 else 1)
        (lineAt lines number) row carets := by
  have mark := mark_rowOf lines location number
  rw [if_pos marked] at mark
  have gutters : (gutter (gutterWidth settings lines location) (rowOf lines location number).number).length =
      gutterWidth settings lines location := gutter_length (mem_shown.mp member).2
  rw [← markAt_column]
  exact ⟨_, _, renderRow_of_marked mark _, aligned_of_mark gutters (markAt_column_pos lines location number)
    (markAt_count_pos lines location number)⟩

/-- A frame shows some lines, one below another, and the gutters of all its rows are of one width. The lines from
    `start` to `final` are marked, and under the row of each are carets that are aligned with it from the
    first column that is marked: that of the location in the line where it starts, the first in any other. -/
theorem carets_aligned (settings : FrameSettings) (text : String) (location : Location)
    (fits : settings.linesBelow.toNat + (Text.sourceLines text.toList).length < UInt64.size) :
    ∃ first start final last part,
      start = min (max location.start.line.toNat 1) (Text.sourceLines text.toList).length ∧
      start ≤ final ∧ final ≤ (Text.sourceLines text.toList).length ∧
      first = max 1 (start - settings.linesAbove.toNat) ∧
      last = min (Text.sourceLines text.toList).length (final + settings.linesBelow.toNat) ∧
      Text.pieces (render settings text location).toList = (List.range' first (last + 1 - first)).flatMap part ∧
      (∀ number, first ≤ number → number ≤ last →
        Part (Text.sourceLines text.toList) (toString last).length number (start ≤ number ∧ number ≤ final)
          (part number) ∧
        ∀ row ∈ part number, (gutterOf row).length = (toString last).length + 3) ∧
      ∀ number, start ≤ number → number ≤ final → ∃ line row carets,
        (Text.sourceLines text.toList)[number - 1]? = some line ∧ part number = [row, carets] ∧
        Aligned (toString last).length (if number = start then max location.start.column.toNat 1 else 1)
          line row carets := by
  have nonempty := Text.sourceLines_length_pos text.toList
  have rendered := pieces_render settings text location fits
  generalize Text.sourceLines text.toList = lines at fits nonempty rendered ⊢
  obtain ⟨_, ordered, inText⟩ := marked_bounds nonempty location
  have lastIs : lastNumber settings lines location =
      min lines.length (finalMarked lines location + settings.linesBelow.toNat) := by
    rw [lastNumber_eq_of_counted (counted_of_fits fits nonempty location), Nat.min_comm]
  refine ⟨firstNumber settings lines location, firstMarked lines location, finalMarked lines location,
    lastNumber settings lines location, fun number =>
      renderRow (gutterWidth settings lines location) (rowOf lines location number), rfl,
    ordered, inText, Nat.max_comm _ _, lastIs, rendered, ?_, ?_⟩
  · intro number above below
    have part := part_renderRow (mem_shown.mpr ⟨above, below⟩)
    exact ⟨part, part.gutterOf_length⟩
  · intro number above below
    have member := marked_shown fits nonempty above below
    obtain ⟨row, carets, written, aligned⟩ := aligned_renderRow member ⟨above, below⟩
    exact ⟨lineAt lines number, row, carets, getElem?_of_mem_shown member, written, aligned⟩

section

def indented : String := "\tab"

/-- Two columns past the end of the line. -/
def pastEnd : Location := .point ⟨1, 6⟩

/-- The caret past the end of a line with a tab is shown where spaces would continue the line. -/
theorem carets_aligned_of_pastEnd :
    (⟨0, 0⟩ : FrameSettings).linesBelow.toNat + (Text.sourceLines indented.toList).length < UInt64.size ∧
      render ⟨0, 0⟩ indented pastEnd = "> 1 | \tab\n    | \t    ^" ∧
      ∀ tab, cellAt tab "    | \t    ^".toList 11 = cellAt tab "> 1 | \tab".toList 11 := by
  have fits : (⟨0, 0⟩ : FrameSettings).linesBelow.toNat + (Text.sourceLines indented.toList).length < UInt64.size := by
    decide
  obtain ⟨first, start, final, last, part, startIs, ordered, inText, firstIs, lastIs, pieces, -, aligned⟩ :=
    carets_aligned ⟨0, 0⟩ indented pastEnd fits
  have lineCount : (Text.sourceLines indented.toList).length = 1 := by decide
  have startLine : start = 1 := startIs.trans (by decide)
  subst startLine
  have firstLine : first = 1 := firstIs.trans (by decide)
  subst firstLine
  have finalLine : final = 1 := by omega
  subst finalLine
  have lastLine : last = 1 := lastIs.trans (by decide)
  subst lastLine
  obtain ⟨line, row, carets, -, written, aligned⟩ := aligned 1 (Nat.le_refl _) (Nat.le_refl _)
  have shown : Text.pieces (render ⟨0, 0⟩ indented pastEnd).toList =
      ["> 1 | \tab".toList, "    | \t    ^".toList] := by decide
  have rows : [row, carets] = ["> 1 | \tab".toList, "    | \t    ^".toList] := by
    rw [← written, ← shown, pieces]
    exact (List.append_nil _).symm
  obtain ⟨rfl, rfl⟩ : row = _ ∧ carets = _ := by simpa only [List.cons.injEq, and_true] using rows
  exact ⟨fits, by decide, aligned.cell_eq⟩

end

end Polyglot.Frame
