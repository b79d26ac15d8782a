import Mathlib.Data.List.Basic
import Polyglot.Proofs.Frames

/-!
# Frames as excerpts

A frame can be read back. Cut at its newlines it has a part for each of some consecutive lines: the row of the
line, which begins with `>` when it is marked, and after a marked one a row of carets (`Part`). The rows that have
a number are those of the lines, and without their gutters they are these lines (`excerpt_of_render`).
-/

namespace Polyglot.Frame

/-! ## Reading a row -/

/-- What stands in front of the first bar of a row. -/
def gutterOf (row : List Char) : List Char := row.takeWhile (· ≠ '|')

/-- What stands after the first bar of a row and the blank next to it. -/
def withoutGutter (row : List Char) : List Char := (row.dropWhile (· ≠ '|')).drop 2

/-- Whether the gutter of a row has a number. -/
def isNumbered (row : List Char) : Bool := (gutterOf row).any Char.isDigit

section

variable {front : List Char} (free : '|' ∉ front) (rest : List Char)

include free

theorem passes_front : ∀ c ∈ front, decide (c ≠ '|') = true :=
  fun _ member => decide_eq_true fun same => free (same ▸ member)

theorem gutterOf_append_bar : gutterOf (front ++ '|' :: rest) = front := by
  unfold gutterOf
  rw [List.takeWhile_append_of_pos (passes_front free), List.takeWhile_cons_of_neg (by decide), List.append_nil]

theorem withoutGutter_append_bar : withoutGutter (front ++ '|' :: rest) = rest.drop 1 := by
  unfold withoutGutter
  rw [List.dropWhile_append_of_pos (passes_front free), List.dropWhile_cons_of_neg (by decide)]
  rfl

end

theorem bar_not_mem_gutter (width number : Nat) : '|' ∉ gutter width number :=
  not_mem_gutter (by decide) (by decide) width number

theorem sourceRow_eq (width : Nat) (row : Row) :
    ∃ sign, (sign = ['>', ' '] ∨ sign = [' ', ' ']) ∧
      sourceRow width row = (sign ++ gutter width row.number ++ [' ']) ++
        '|' :: (if row.line = [] then [] else ' ' :: row.line) := by
  refine ⟨if row.mark.isSome then ['>', ' '] else [' ', ' '], ?_, ?_⟩
  · split
    · exact .inl rfl
    · exact .inr rfl
  · simp only [sourceRow, List.append_assoc, List.cons_append, List.nil_append]

theorem bar_not_mem_front {sign : List Char} (signs : sign = ['>', ' '] ∨ sign = [' ', ' ']) (width number : Nat) :
    '|' ∉ sign ++ gutter width number ++ [' '] := by
  simp only [List.mem_append, not_or]
  refine ⟨⟨?_, bar_not_mem_gutter width number⟩, by decide⟩
  rcases signs with rfl | rfl <;> decide

/-- Nothing of a line is lost in its row. -/
theorem withoutGutter_sourceRow (width : Nat) (row : Row) : withoutGutter (sourceRow width row) = row.line := by
  obtain ⟨sign, signs, written⟩ := sourceRow_eq width row
  rw [written, withoutGutter_append_bar (bar_not_mem_front signs width row.number)]
  split
  · next empty => exact empty.symm
  · rfl

theorem exists_digit (number : Nat) : ∃ digit ∈ (toString number).toList, digit.isDigit = true := by
  have some : 0 < (toString number).toList.length := by
    rw [Nat.toString_eq_repr, Nat.toList_repr]
    exact Nat.length_toDigits_pos
  exact ⟨_, List.getElem_mem some, isDigit_of_mem_toString (List.getElem_mem some)⟩

theorem isNumbered_sourceRow (width : Nat) (row : Row) : isNumbered (sourceRow width row) = true := by
  obtain ⟨sign, signs, written⟩ := sourceRow_eq width row
  obtain ⟨digit, member, isDigit⟩ := exists_digit row.number
  rw [written, isNumbered, gutterOf_append_bar (bar_not_mem_front signs width row.number), List.any_eq_true]
  refine ⟨digit, ?_, isDigit⟩
  simp only [gutter, List.mem_append]
  exact .inl (.inr (.inr member))

theorem isNumbered_caretRow (width : Nat) (line : List Char) (mark : Mark) :
    isNumbered (caretRow width line mark) = false := by
  have free : '|' ∉ [' ', ' '] ++ List.replicate width ' ' ++ [' '] := by
    simp only [List.mem_append, not_or]
    refine ⟨⟨by decide, fun member => ?_⟩, by decide⟩
    cases List.eq_of_mem_replicate member
  have written : caretRow width line mark = ([' ', ' '] ++ List.replicate width ' ' ++ [' ']) ++
      '|' :: ' ' :: (spacing line mark.column ++ List.replicate mark.count '^') := by
    simp only [caretRow, List.append_assoc, List.cons_append, List.nil_append]
  rw [written, isNumbered, gutterOf_append_bar free, List.any_eq_false]
  intro c member
  have blank : c = ' ' := by
    simpa only [List.mem_append, List.mem_cons, List.not_mem_nil, or_false, or_self, List.mem_replicate,
      or_iff_left_of_imp And.right] using member
  rw [blank]
  decide

/-! ## The parts of a frame -/

/-- The row of a line: a sign, the number of the line at the right of a gutter, a bar, and after it the line. -/
structure ShowsLine (sign : List Char) (width number : Nat) (line row : List Char) : Prop where
  begins : sign ++ (toString number).toList.leftpad width ' ' ++ [' ', '|'] <+: row
  aligned : (toString number).length ≤ width
  numbered : isNumbered row = true
  line_eq : withoutGutter row = line

/-- A row of carets: a gutter without a number, a bar, blanks, and carets to the end. -/
structure ShowsCarets (width : Nat) (row : List Char) : Prop where
  begins : [' ', ' '] ++ List.replicate width ' ' ++ [' ', '|', ' '] <+: row
  unnumbered : isNumbered row = false
  carets : ∃ blanks count, (∀ c ∈ blanks, c = ' ' ∨ c = '\t') ∧ 0 < count ∧
    row.drop (width + 5) = blanks ++ List.replicate count '^'

/-- What a frame has for a line: its row, and after that of a marked line a row of carets. -/
inductive Part (lines : List (List Char)) (width number : Nat) (marked : Prop) : List (List Char) → Prop
  | marked {line row carets : List Char} (holds : marked) (found : lines[number - 1]? = some line)
      (shows : ShowsLine ['>', ' '] width number line row) (under : ShowsCarets width carets) :
      Part lines width number marked [row, carets]
  | plain {line row : List Char} (fails : ¬ marked) (found : lines[number - 1]? = some line)
      (shows : ShowsLine [' ', ' '] width number line row) : Part lines width number marked [row]

variable {settings : FrameSettings} {lines : List (List Char)} {location : Location}

theorem showsLine_sourceRow {sign : List Char} {number : Nat}
    (below : number ≤ lastNumber settings lines location)
    (begins : sign ++ gutter (gutterWidth settings lines location) number ++ [' ', '|'] <+:
      sourceRow (gutterWidth settings lines location) (rowOf lines location number)) :
    ShowsLine sign (gutterWidth settings lines location) number (lineAt lines number)
      (sourceRow (gutterWidth settings lines location) (rowOf lines location number)) where
  begins := begins
  aligned := digits_length_le below
  numbered := isNumbered_sourceRow _ _
  line_eq := withoutGutter_sourceRow _ _

theorem showsCarets_caretRow (width : Nat) (line : List Char) {mark : Mark} (some : 0 < mark.count) :
    ShowsCarets width (caretRow width line mark) where
  begins := by
    simp only [caretRow, List.append_assoc, List.prefix_append_right_inj]
    exact List.prefix_append _ _
  unnumbered := isNumbered_caretRow width line mark
  carets := by
    have front : ([' ', ' '] ++ List.replicate width ' ' ++ [' ', '|', ' ']).length = width + 5 := by
      simp only [List.length_append, List.length_replicate, List.length_cons, List.length_nil]
      omega
    refine ⟨spacing line mark.column, mark.count, fun _ => blank_of_mem_spacing, some, ?_⟩
    rw [caretRow, List.append_assoc _ (spacing line mark.column), List.drop_left' front]

theorem markAt_count_pos (lines : List (List Char)) (location : Location) (number : Nat) :
    0 < (markAt lines location number).count :=
  Nat.le_max_right _ _

theorem part_renderRow {number : Nat} (member : number ∈ shown settings lines location) :
    Part lines (gutterWidth settings lines location) number
      (firstMarked lines location ≤ number ∧ number ≤ finalMarked lines location)
      (renderRow (gutterWidth settings lines location) (rowOf lines location number)) := by
  have found := getElem?_of_mem_shown member
  have below := (mem_shown.mp member).2
  have mark := mark_rowOf lines location number
  by_cases marked : firstMarked lines location ≤ number ∧ number ≤ finalMarked lines location
  · rw [if_pos marked] at mark
    rw [renderRow_of_marked mark]
    exact .marked marked found (showsLine_sourceRow below (sourceRow_of_marked mark _))
      (showsCarets_caretRow _ _ (markAt_count_pos lines location number))
  · rw [if_neg marked] at mark
    rw [renderRow_of_plain mark]
    exact .plain marked found (showsLine_sourceRow below (sourceRow_of_plain mark _))

/-! ## Counting and reading back -/

theorem length_flatMap_of_length {α β : Type} {f : α → List β} {count : Nat} {list : List α}
    (each : ∀ x ∈ list, (f x).length = count) : (list.flatMap f).length = list.length * count := by
  induction list with
  | nil => simp only [List.flatMap_nil, List.length_nil, Nat.zero_mul]
  | cons x rest ih =>
    have rest := ih fun y member => each y (List.mem_cons_of_mem x member)
    rw [List.flatMap_cons, List.length_append, each x List.mem_cons_self, rest, List.length_cons, Nat.succ_mul,
      Nat.add_comm]

/-- The numbers of the lines above the marked ones, of these, and of the lines below. -/
theorem range'_split {first start final last : Nat} (above : first ≤ start) (ordered : start ≤ final)
    (below : final ≤ last) :
    List.range' first (last + 1 - first) =
      List.range' first (start - first) ++
        (List.range' start (final + 1 - start) ++ List.range' (final + 1) (last - final)) := by
  have toMarked : first + (start - first) = start := by omega
  have toBelow : start + (final + 1 - start) = final + 1 := by omega
  have marked := List.range'_append_1 (s := start) (m := final + 1 - start) (n := last - final)
  have whole := List.range'_append_1 (s := first) (m := start - first) (n := final + 1 - start + (last - final))
  rw [toBelow] at marked
  rw [toMarked] at whole
  rw [marked, whole]
  congr 1
  omega

theorem Part.length_of_marked {width number : Nat} {marked : Prop} {rows : List (List Char)}
    (part : Part lines width number marked rows) (holds : marked) : rows.length = 2 := by
  cases part with
  | marked => rfl
  | plain fails => exact absurd holds fails

theorem Part.length_of_plain {width number : Nat} {marked : Prop} {rows : List (List Char)}
    (part : Part lines width number marked rows) (fails : ¬ marked) : rows.length = 1 := by
  cases part with
  | marked holds => exact absurd holds fails
  | plain => rfl

/-- The rows of a part that have a number are the row of its line. -/
theorem Part.lines_eq {width number : Nat} {marked : Prop} {rows : List (List Char)}
    (part : Part lines width number marked rows) :
    (rows.filter isNumbered).map withoutGutter = [lineAt lines number] := by
  cases part with
  | marked _ found shows under =>
    rw [List.filter_cons_of_pos shows.numbered, List.filter_cons_of_neg (by rw [under.unnumbered]; decide),
      List.filter_nil, List.map_singleton, shows.line_eq, lineAt_of_getElem? found]
  | plain _ found shows =>
    rw [List.filter_cons_of_pos shows.numbered, List.filter_nil, List.map_singleton, shows.line_eq,
      lineAt_of_getElem? found]

theorem map_lineAt_range' {first last : Nat} (positive : 0 < first) (inText : last ≤ lines.length) :
    (List.range' first (last + 1 - first)).map (lineAt lines) = (lines.drop (first - 1)).take (last + 1 - first) := by
  apply List.ext_getElem
  · simp only [List.length_map, List.length_range', List.length_take, List.length_drop]
    omega
  · intro index below _
    simp only [List.length_map, List.length_range'] at below
    have before : first + index - 1 = first - 1 + index := by omega
    have within : first - 1 + index < lines.length := by omega
    simp only [List.getElem_map, List.getElem_range', List.getElem_take, List.getElem_drop, Nat.one_mul, lineAt,
      before, List.getD_eq_getElem?_getD, List.getElem?_eq_getElem within, Option.getD_some]

/-! ## The frame -/

/-- The rows of an excerpt of some lines, from `first` to `last`, in which those from `start` to `final` are marked.
    All numbers are in gutters as wide as that of the last line. -/
structure Excerpt (lines : List (List Char)) (first start final last : Nat) (rows : List (List Char)) : Prop where
  parts : ∃ part : Nat → List (List Char), rows = (List.range' first (last + 1 - first)).flatMap part ∧
    ∀ number, first ≤ number → number ≤ last →
      Part lines (toString last).length number (start ≤ number ∧ number ≤ final) (part number)
  above : first ≤ start
  ordered : start ≤ final
  below : final ≤ last
  length_eq : rows.length = (last - first + 1) + (final - start + 1)
  lines_eq : (rows.filter isNumbered).map withoutGutter = (lines.drop (first - 1)).take (last + 1 - first)

theorem excerpt_of_parts {first start final last : Nat} {part : Nat → List (List Char)} (positive : 0 < first)
    (above : first ≤ start) (ordered : start ≤ final) (below : final ≤ last) (inText : last ≤ lines.length)
    (parts : ∀ number, first ≤ number → number ≤ last →
      Part lines (toString last).length number (start ≤ number ∧ number ≤ final) (part number)) :
    Excerpt lines first start final last ((List.range' first (last + 1 - first)).flatMap part) where
  parts := ⟨part, rfl, parts⟩
  above := above
  ordered := ordered
  below := below
  length_eq := by
    -- A marked line has two rows, each line above and below them has one.
    have before : ∀ number ∈ List.range' first (start - first), (part number).length = 1 := by
      intro number member
      have := List.mem_range'_1.mp member
      exact (parts number (by omega) (by omega)).length_of_plain (by omega)
    have within : ∀ number ∈ List.range' start (final + 1 - start), (part number).length = 2 := by
      intro number member
      have := List.mem_range'_1.mp member
      exact (parts number (by omega) (by omega)).length_of_marked (by omega)
    have after : ∀ number ∈ List.range' (final + 1) (last - final), (part number).length = 1 := by
      intro number member
      have := List.mem_range'_1.mp member
      exact (parts number (by omega) (by omega)).length_of_plain (by omega)
    rw [range'_split above ordered below, List.flatMap_append, List.flatMap_append, List.length_append,
      List.length_append, length_flatMap_of_length before, length_flatMap_of_length within,
      length_flatMap_of_length after]
    simp only [List.length_range']
    omega
  lines_eq := by
    rw [List.filter_flatMap, List.map_flatMap, ← map_lineAt_range' positive inText, List.map_eq_flatMap]
    refine List.flatMap_congr fun number member => ?_
    have := List.mem_range'_1.mp member
    exact (parts number (by omega) (by omega)).lines_eq

/-- A frame is an excerpt of its text: from as many lines above the line where the location starts as the settings
    say to as many below the last marked one, as far as there are lines. A location that starts before
    the first line or after the last starts in that one. -/
theorem excerpt_of_render (settings : FrameSettings) (text : String) (location : Location)
    (fits : settings.linesBelow.toNat + (Text.sourceLines text.toList).length < UInt64.size) :
    ∃ start final,
      start = min (max location.start.line.toNat 1) (Text.sourceLines text.toList).length ∧
      start ≤ final ∧ final ≤ (Text.sourceLines text.toList).length ∧
      Excerpt (Text.sourceLines text.toList) (max 1 (start - settings.linesAbove.toNat)) start final
        (min (Text.sourceLines text.toList).length (final + settings.linesBelow.toNat))
        (Text.pieces (render settings text location).toList) := by
  have nonempty := Text.sourceLines_length_pos text.toList
  have rendered := pieces_render settings text location fits
  generalize Text.sourceLines text.toList = lines at fits nonempty rendered ⊢
  obtain ⟨_, ordered, inText⟩ := marked_bounds nonempty location
  have firstIs : max 1 (firstMarked lines location - settings.linesAbove.toNat) =
      firstNumber settings lines location := Nat.max_comm _ _
  have lastIs : min lines.length (finalMarked lines location + settings.linesBelow.toNat) =
      lastNumber settings lines location := by
    rw [lastNumber_eq_of_counted (counted_of_fits fits nonempty location), Nat.min_comm]
  refine ⟨firstMarked lines location, finalMarked lines location, rfl, ordered, inText, ?_⟩
  rw [firstIs, lastIs, rendered]
  have final := marked_shown fits nonempty ordered (Nat.le_refl _)
  exact excerpt_of_parts (firstNumber_pos settings lines location) (firstNumber_le nonempty settings location)
    ordered (mem_shown.mp final).2 (lastNumber_le settings lines location)
    fun number above below => part_renderRow (mem_shown.mpr ⟨above, below⟩)

section

/-- Its second line is empty, and its third begins with a tab. -/
def tabbed : String := "a\n\n\tb\nc"

def fromBlank : Location := .range ⟨2, 1⟩ ⟨3, 2⟩

/-- The empty line and the one with the tab are marked, and the lines shown are read back from the frame. -/
theorem excerpt_of_tabbed :
    render ⟨1, 0⟩ tabbed fromBlank = "  1 | a\n> 2 |\n    | ^\n> 3 | \tb\n    | ^" ∧
      (⟨1, 0⟩ : FrameSettings).linesBelow.toNat + (Text.sourceLines tabbed.toList).length < UInt64.size ∧
      Excerpt (Text.sourceLines tabbed.toList) 1 2 3 3 (Text.pieces (render ⟨1, 0⟩ tabbed fromBlank).toList) ∧
      ((Text.pieces (render ⟨1, 0⟩ tabbed fromBlank).toList).filter isNumbered).map withoutGutter =
        [['a'], [], ['\t', 'b']] := by
  have fits : (⟨1, 0⟩ : FrameSettings).linesBelow.toNat + (Text.sourceLines tabbed.toList).length < UInt64.size := by
    decide
  obtain ⟨start, final, startIs, ordered, inText, excerpt⟩ := excerpt_of_render ⟨1, 0⟩ tabbed fromBlank fits
  have lineCount : (Text.sourceLines tabbed.toList).length = 4 := by decide
  have rowCount : (Text.pieces (render ⟨1, 0⟩ tabbed fromBlank).toList).length = 5 := by decide
  have startLine : start = 2 := startIs.trans (by decide)
  subst startLine
  have finalLine : final = 3 := by
    have counted := excerpt.length_eq
    have noneBelow : (⟨1, 0⟩ : FrameSettings).linesBelow.toNat = 0 := rfl
    have oneAbove : (⟨1, 0⟩ : FrameSettings).linesAbove.toNat = 1 := rfl
    rw [rowCount, lineCount, noneBelow, oneAbove] at counted
    omega
  subst finalLine
  exact ⟨by decide, fits, excerpt, excerpt.lines_eq⟩

end

end Polyglot.Frame
