import Polyglot.Proofs.Carets

/-!
# Locations outside the text

A position in a line before the first or after the last is brought to that line, and keeps its column there. So a
range that does not end after its start marks its start alone, unless both are brought to one line
(`render_of_backward`), and one that ends in a line after the last ends in the last (`marks_of_overrun`).
-/

namespace Polyglot.Frame

variable {lines : List (List Char)} {location : Location}

theorem stopOf_of_same_line {stop : Position} (range : location.stop = some stop)
    (same : (bring lines.length stop).line = (startOf lines location).line) :
    stopOf lines location = some (bring lines.length stop) := by
  have unmoved : exclusiveEnd lines (startOf lines location) (bring lines.length stop) = bring lines.length stop :=
    if_neg fun ⟨later, _⟩ => absurd same (Nat.ne_of_gt later)
  rw [stopOf_of_range range, if_pos (Nat.le_of_eq same.symm), unmoved]

/-! ## Ends before their start -/

/-- Two locations that start and end their marks in the same lines, and give each line the same row, have one frame. -/
theorem render_congr (settings : FrameSettings) {text : String} {location other : Location}
    (start : startOf (Text.sourceLines text.toList) location = startOf (Text.sourceLines text.toList) other)
    (final : finalMarked (Text.sourceLines text.toList) location =
      finalMarked (Text.sourceLines text.toList) other)
    (same : ∀ number, rowOf (Text.sourceLines text.toList) location number =
      rowOf (Text.sourceLines text.toList) other number) :
    render settings text location = render settings text other := by
  simp only [render, rows_eq]
  generalize Text.sourceLines text.toList = lines at start final same
  have first : firstNumber settings lines location = firstNumber settings lines other :=
    congrArg (firstShown settings) start
  have last : lastNumber settings lines location = lastNumber settings lines other :=
    congrArg (fun line => min (wordSum line settings.linesBelow.toNat) lines.length) final
  have width : gutterWidth settings lines location = gutterWidth settings lines other :=
    congrArg (fun number => (toString number).length) last
  have numbers : shown settings lines location = shown settings lines other := by
    simp only [shown, first, last]
  rw [width, numbers, funext same]

theorem render_congr_ends (settings : FrameSettings) {text : String} {location other : Location}
    (start : startOf (Text.sourceLines text.toList) location = startOf (Text.sourceLines text.toList) other)
    (stop : stopOf (Text.sourceLines text.toList) location = stopOf (Text.sourceLines text.toList) other) :
    render settings text location = render settings text other := by
  refine render_congr settings start ?_ fun number => ?_
  · rw [finalMarked, finalMarked, start, stop]
  · rw [rowOf, rowOf, start, stop]

theorem markOf_of_near {start stop : Spot} (same : stop.line = start.line) (near : stop.column ≤ start.column + 1)
    (number length : Nat) : markOf start (some stop) number length = markOf start none number length := by
  have one : max (stop.column - start.column) 1 = 1 := by omega
  simp only [markOf, same, one, if_true]

theorem render_of_dropped (settings : FrameSettings) {text : String} {start stop : Position}
    (before : (bring (Text.sourceLines text.toList).length stop).line <
      (bring (Text.sourceLines text.toList).length start).line) :
    render settings text (.range start stop) = render settings text (.point start) := by
  refine render_congr_ends settings rfl ?_
  rw [stopOf_of_range rfl, stopOf_eq_none rfl]
  exact if_neg (Nat.not_le_of_lt before)

theorem render_of_near (settings : FrameSettings) {text : String} {start stop : Position}
    (same : (bring (Text.sourceLines text.toList).length stop).line =
      (bring (Text.sourceLines text.toList).length start).line)
    (near : (bring (Text.sourceLines text.toList).length stop).column ≤
      (bring (Text.sourceLines text.toList).length start).column + 1) :
    render settings text (.range start stop) = render settings text (.point start) := by
  have point : stopOf (Text.sourceLines text.toList) (.point start) = none := stopOf_eq_none rfl
  have ended : stopOf (Text.sourceLines text.toList) (.range start stop) =
      some (bring (Text.sourceLines text.toList).length stop) := stopOf_of_same_line rfl same
  -- The two have different ends, so it is the marks that have to be compared.
  refine render_congr settings rfl ?_ fun number => ?_
  · rw [finalMarked, finalMarked, ended, point]
    exact same
  · rw [rowOf, rowOf, ended, point]
    exact congrArg (Row.mk number _) (markOf_of_near same near _ _)

/-- The end is in a line before that of the start, but the text has one line that is the nearest to both, and the end
    is more than one column after the start. -/
def Folds (lineCount : Nat) (start stop : Spot) : Prop :=
  stop.line < start.line ∧ (start.line = 1 ∨ lineCount ≤ max stop.line 1) ∧ max start.column 1 + 1 < stop.column

instance (lineCount : Nat) (start stop : Spot) : Decidable (Folds lineCount start stop) :=
  inferInstanceAs (Decidable (_ ∧ _))

/-- Positions are brought to one line when this is the first or the last. -/
theorem bring_line_eq_iff {lineCount : Nat} {start stop : Position} (before : stop.spot.line < start.spot.line) :
    (bring lineCount stop).line = (bring lineCount start).line ↔
      start.spot.line = 1 ∨ lineCount ≤ max stop.spot.line 1 := by
  simp only [Position.spot] at before ⊢
  simp only [bring]
  omega

theorem bring_line_le_bring_line (lineCount : Nat) {start stop : Position} (le : stop.spot.line ≤ start.spot.line) :
    (bring lineCount stop).line ≤ (bring lineCount start).line := by
  simp only [Position.spot] at le
  simp only [bring]
  omega

theorem bring_column_le_of_not_folds {lineCount : Nat} {start stop : Position}
    (backward : ¬ start.spot.Before stop.spot) (apart : ¬ Folds lineCount start.spot stop.spot)
    (same : (bring lineCount stop).line = (bring lineCount start).line) :
    (bring lineCount stop).column ≤ (bring lineCount start).column + 1 := by
  unfold Spot.Before at backward
  unfold Folds at apart
  by_cases before : stop.spot.line < start.spot.line
  · have folded := (bring_line_eq_iff before).mp same
    simp only [Position.spot] at before folded apart
    simp only [bring]
    omega
  · simp only [Position.spot] at before backward
    simp only [bring]
    omega

/-- A range that does not end after its start is drawn as its start is, wherever the two are, unless both are brought
    to one line and the end is after the start there. That range is drawn as one in this line. -/
theorem render_of_backward (settings : FrameSettings) (text : String) {start stop : Position}
    (backward : ¬ start.spot.Before stop.spot) :
    (¬ Folds (Text.sourceLines text.toList).length start.spot stop.spot →
        render settings text (.range start stop) = render settings text (.point start)) ∧
      (Folds (Text.sourceLines text.toList).length start.spot stop.spot →
        render settings text (.range start stop) =
          render settings text (.range start ⟨start.line, stop.column⟩)) := by
  constructor
  · intro apart
    have notLater : stop.spot.line ≤ start.spot.line := Nat.le_of_not_lt fun later => backward (.inl later)
    have ordered := bring_line_le_bring_line (Text.sourceLines text.toList).length notLater
    rcases Nat.lt_or_eq_of_le ordered with before | same
    · exact render_of_dropped settings before
    · exact render_of_near settings same (bring_column_le_of_not_folds backward apart same)
  · rintro ⟨before, folded, _⟩
    have line := (bring_line_eq_iff before).mpr folded
    have same : bring (Text.sourceLines text.toList).length stop =
        bring (Text.sourceLines text.toList).length ⟨start.line, stop.column⟩ := by
      simp only [bring, Spot.mk.injEq] at line ⊢
      exact ⟨line, trivial⟩
    refine render_congr_ends settings rfl ?_
    rw [stopOf_of_range rfl, stopOf_of_range rfl, same]
    rfl

section

def twoLines : String := "a\nb"

def pastTheEnd : Position := ⟨9, 1⟩

/-- The end of a range that starts past the end of the text, in the first line and in a line past the end. -/
theorem renders_of_backward :
    ¬ pastTheEnd.spot.Before (⟨1, 7⟩ : Position).spot ∧
      ¬ Folds (Text.sourceLines twoLines.toList).length pastTheEnd.spot (⟨1, 7⟩ : Position).spot ∧
      render {} twoLines (.range pastTheEnd ⟨1, 7⟩) = render {} twoLines (.point pastTheEnd) ∧
      render {} twoLines (.point pastTheEnd) = "  1 | a\n> 2 | b\n    | ^" ∧
      Folds (Text.sourceLines twoLines.toList).length pastTheEnd.spot (⟨5, 7⟩ : Position).spot ∧
      render {} twoLines (.range pastTheEnd ⟨5, 7⟩) = render {} twoLines (.range pastTheEnd ⟨9, 7⟩) ∧
      render {} twoLines (.range pastTheEnd ⟨9, 7⟩) = "  1 | a\n> 2 | b\n    | ^^^^^^" := by
  have apart : ¬ Folds (Text.sourceLines twoLines.toList).length pastTheEnd.spot (⟨1, 7⟩ : Position).spot := by decide
  have folds : Folds (Text.sourceLines twoLines.toList).length pastTheEnd.spot (⟨5, 7⟩ : Position).spot := by decide
  exact ⟨by decide, apart, (render_of_backward {} twoLines (by decide)).1 apart, by decide, folds,
    (render_of_backward {} twoLines (by decide)).2 folds, by decide⟩

/-- So a range that does not end after its start is not always drawn as its start. -/
theorem not_always_as_start :
    ¬ ∀ (settings : FrameSettings) (text : String) (start stop : Position), ¬ start.spot.Before stop.spot →
      render settings text (.range start stop) = render settings text (.point start) := by
  intro always
  have same := always {} twoLines pastTheEnd ⟨5, 7⟩ (by decide)
  revert same
  decide

end

/-! ## Ends after the last line -/

/-- The range starts in the lines, and ends in a line after the last. -/
structure Overruns (lines : List (List Char)) (start stop : Position) : Prop where
  start : start.spot.In lines
  beyond : lines.length < stop.spot.line

/-- The row of a line, and under it carets from the first of these columns to before the second, at least one. -/
inductive Underlined (lines : List (List Char)) (width number first stop : Nat) : List (List Char) → Prop
  | intro {source row carets : List Char} (found : lines[number - 1]? = some source)
      (begins : ['>', ' '] ++ gutter width number ++ [' ', '|'] <+: row)
      (shows : ∀ column, 0 < column → row[width + 4 + column]? = source[column - 1]?)
      (under : ∀ index, carets[index]? = some '^' ↔
        ∃ column, index = width + 4 + column ∧ first ≤ column ∧ column < max stop (first + 1)) :
      Underlined lines width number first stop [row, carets]

theorem reaches_range_iff {start stop : Position} {number : Nat} :
    Reaches (.range start stop) number ↔
      number = start.spot.line ∨ start.spot.line < number ∧ number < stop.spot.line ∨
        number = stop.spot.line ∧ 1 < stop.spot.column := by
  simp only [Reaches, Location.range, Option.mem_some_iff, exists_eq_left']

theorem covers_range_iff {start stop : Position} {spot : Spot} :
    Covers (.range start stop) spot ↔ ¬ spot.Before start.spot ∧ spot.Before stop.spot := Iff.rfl

section

variable {start stop : Position} (overruns : Overruns lines start stop)

include overruns

theorem Overruns.length_pos : 0 < lines.length :=
  Nat.lt_of_lt_of_le overruns.start.line_pos overruns.start.line_le

theorem Overruns.startOf_eq : startOf lines (.range start stop) = start.spot := bring_eq overruns.start

theorem Overruns.bring_stop : bring lines.length stop = ⟨lines.length, max stop.spot.column 1⟩ := by
  have beyond := overruns.beyond
  have nonempty := overruns.length_pos
  simp only [Position.spot] at beyond
  simp only [bring, Position.spot, Spot.mk.injEq, and_true]
  omega

/-- The marks end in the last line, or with the line before when that is all. -/
theorem Overruns.stopOf_eq : stopOf lines (.range start stop) =
    some (exclusiveEnd lines start.spot ⟨lines.length, max stop.spot.column 1⟩) := by
  have ordered : start.spot.line ≤ lines.length := overruns.start.line_le
  rw [stopOf_of_range rfl, overruns.startOf_eq, overruns.bring_stop, if_pos ordered]

theorem Overruns.firstMarked_eq : firstMarked lines (.range start stop) = start.spot.line :=
  congrArg Spot.line overruns.startOf_eq

theorem Overruns.le_finalMarked {number : Nat} (before : number < lines.length) :
    number ≤ finalMarked lines (.range start stop) := by
  rw [finalMarked, overruns.stopOf_eq]
  simp only [lastMarked, exclusiveEnd]
  split
  · simp only
    omega
  · exact Nat.le_of_lt before

theorem Overruns.reaches_iff {number : Nat} (before : number < lines.length) :
    Reaches (.range start stop) number ↔
      firstMarked lines (.range start stop) ≤ number ∧ number ≤ finalMarked lines (.range start stop) := by
  have beyond := overruns.beyond
  have final := overruns.le_finalMarked before
  rw [overruns.firstMarked_eq, reaches_range_iff]
  omega

theorem Overruns.caretStop_eq {number : Nat} (before : number < lines.length) :
    caretStop (startOf lines (.range start stop)) (stopOf lines (.range start stop)) number
      (lineAt lines number).length = (lineAt lines number).length + 1 := by
  rw [overruns.stopOf_eq]
  unfold exclusiveEnd
  split
  · -- The end was moved after the last character of the line before the last.
    simp only [caretStop]
    split
    · next last =>
      rw [last]
      rfl
    · rfl
  · exact if_neg (Nat.ne_of_lt before)

theorem Overruns.covers_iff {number : Nat} (before : number < lines.length)
    (reaches : Reaches (.range start stop) number) {column : Nat} (positive : 0 < column)
    (within : column ≤ (lineAt lines number).length) :
    Covers (.range start stop) ⟨number, column⟩ ↔
      caretStart (startOf lines (.range start stop)) number ≤ column ∧
        column < caretStop (startOf lines (.range start stop)) (stopOf lines (.range start stop)) number
          (lineAt lines number).length := by
  have beyond := overruns.beyond
  rw [reaches_range_iff] at reaches
  rw [overruns.caretStop_eq before, overruns.startOf_eq, covers_range_iff]
  unfold Spot.Before caretStart
  simp only
  split
  · omega
  · omega

theorem Overruns.hasCaret_iff {number : Nat} (before : number < lines.length)
    (reaches : Reaches (.range start stop) number) (column : Nat) :
    HasCaret (.range start stop) number (lineAt lines number).length column ↔
      (markAt lines (.range start stop) number).column ≤ column ∧
        column < (markAt lines (.range start stop) number).column + (markAt lines (.range start stop) number).count := by
  have between := exactly_between (markAt_column_pos lines (.range start stop) number)
    (.inl (Nat.le_of_eq (overruns.caretStop_eq before))) (fun _ => overruns.covers_iff before reaches) column
  refine Iff.trans ?_ between
  simp only [HasCaret, markAt, caretStart, overruns.startOf_eq]
  rfl

/-- The last line is marked unless the end is brought to its first column and another line is marked before. -/
theorem Overruns.stopOf_eq_last (ends : start.spot.line = lines.length ∨ 1 < stop.spot.column) :
    stopOf lines (.range start stop) = some ⟨lines.length, max stop.spot.column 1⟩ := by
  rw [overruns.stopOf_eq]
  refine congrArg some (if_neg ?_)
  simp only
  omega

theorem Overruns.underlined {settings : FrameSettings}
    (ends : start.spot.line = lines.length ∨ 1 < stop.spot.column)
    (member : lines.length ∈ shown settings lines (.range start stop)) :
    Underlined lines (gutterWidth settings lines (.range start stop)) lines.length
      (caretStart start.spot lines.length) stop.spot.column
      (renderRow (gutterWidth settings lines (.range start stop)) (rowOf lines (.range start stop) lines.length)) := by
  have marked : firstMarked lines (.range start stop) ≤ lines.length ∧
      lines.length ≤ finalMarked lines (.range start stop) := by
    rw [overruns.firstMarked_eq, finalMarked, overruns.stopOf_eq_last ends]
    exact ⟨overruns.start.line_le, Nat.le_refl _⟩
  obtain ⟨row, carets, written, begins, shows, under⟩ := exists_rows_of_marked member marked
  rw [written]
  refine .intro (getElem?_of_mem_shown member) begins shows fun index => ?_
  rw [under index]
  have positive := markAt_column_pos lines (.range start stop) lines.length
  simp only [markAt, caretStop, overruns.startOf_eq, overruns.stopOf_eq_last ends, if_true] at positive ⊢
  have ended : caretStart start.spot lines.length +
      max (max stop.spot.column 1 - caretStart start.spot lines.length) 1 =
        max stop.spot.column (caretStart start.spot lines.length + 1) := by omega
  rw [ended]

end

/-- Before the last line, a range that starts in the text and ends after the last line has the carets that a range over
    all this would have. In the last line it has them up to its own column: as many as that says, or one. That
    line is so marked when the range also starts in it or does not end at the first column. -/
theorem marks_of_overrun (settings : FrameSettings) (text : String) {start stop : Position}
    (overruns : Overruns (Text.sourceLines text.toList) start stop)
    (fits : settings.linesBelow.toNat + (Text.sourceLines text.toList).length < UInt64.size) :
    ∃ first last width, ∃ part : Nat → List (List Char),
      0 < first ∧ last ≤ (Text.sourceLines text.toList).length ∧
      Text.pieces (render settings text (.range start stop)).toList =
        (List.range' first (last + 1 - first)).flatMap part ∧
      (∀ number, first ≤ number → number ≤ last → number < (Text.sourceLines text.toList).length →
        Block (Text.sourceLines text.toList) (.range start stop) width number (part number)) ∧
      (∀ number, start.spot.line ≤ number → number < (Text.sourceLines text.toList).length →
        first ≤ number ∧ number ≤ last) ∧
      (start.spot.line = (Text.sourceLines text.toList).length ∨ 1 < stop.spot.column →
        first ≤ (Text.sourceLines text.toList).length ∧ last = (Text.sourceLines text.toList).length ∧
        Underlined (Text.sourceLines text.toList) width (Text.sourceLines text.toList).length
          (caretStart start.spot (Text.sourceLines text.toList).length) stop.spot.column
          (part (Text.sourceLines text.toList).length)) := by
  have rendered := pieces_render settings text (.range start stop) fits
  generalize Text.sourceLines text.toList = lines at overruns fits rendered ⊢
  have nonempty := overruns.length_pos
  have inText := lastNumber_le settings lines (.range start stop)
  refine ⟨_, _, gutterWidth settings lines (.range start stop), _, firstNumber_pos settings lines (.range start stop),
    inText, rendered, ?_, ?_, fun ends => ?_⟩
  · intro number above below before
    exact block_of_marks (mem_shown.mpr ⟨above, below⟩) (overruns.reaches_iff before) (overruns.hasCaret_iff before)
  · intro number after before
    rw [← overruns.firstMarked_eq] at after
    exact mem_shown.mp (marked_shown fits nonempty after (overruns.le_finalMarked before))
  · have final : finalMarked lines (.range start stop) = lines.length := by
      rw [finalMarked, overruns.stopOf_eq_last ends]
      rfl
    have member : lines.length ∈ shown settings lines (.range start stop) :=
      marked_shown fits nonempty (overruns.firstMarked_eq ▸ overruns.start.line_le) (Nat.le_of_eq final.symm)
    obtain ⟨above, below⟩ := mem_shown.mp member
    exact ⟨above, Nat.le_antisymm inText below, overruns.underlined ends member⟩

section

def twoWords : String := "ab\ncdef"

/-- From the beginning of the first line to the third column of a line that is not there. -/
def tooFar : Location := .range ⟨1, 1⟩ ⟨9, 3⟩

theorem overruns_twoWords : Overruns (Text.sourceLines twoWords.toList) ⟨1, 1⟩ ⟨9, 3⟩ where
  start := ⟨by decide, by decide, by decide, by decide⟩
  beyond := by decide

/-- The first line is marked to its end, and the last to its second column. -/
theorem marks_of_tooFar :
    render {} twoWords tooFar = "> 1 | ab\n    | ^^\n> 2 | cdef\n    | ^^" ∧
      Overruns (Text.sourceLines twoWords.toList) ⟨1, 1⟩ ⟨9, 3⟩ ∧
      ({} : FrameSettings).linesBelow.toNat + (Text.sourceLines twoWords.toList).length < UInt64.size ∧
      ∃ width, ∃ part : Nat → List (List Char),
        Text.pieces (render {} twoWords tooFar).toList = part 1 ++ part 2 ∧
        Block (Text.sourceLines twoWords.toList) tooFar width 1 (part 1) ∧
        Underlined (Text.sourceLines twoWords.toList) width 2 1 3 (part 2) := by
  have fits : ({} : FrameSettings).linesBelow.toNat + (Text.sourceLines twoWords.toList).length < UInt64.size := by
    decide
  obtain ⟨first, last, width, part, positive, _, pieces, blocks, within, ends⟩ :=
    marks_of_overrun {} twoWords overruns_twoWords fits
  obtain ⟨above, below⟩ := within 1 (by decide) (by decide)
  obtain ⟨_, lastLine, underlined⟩ := ends (.inr (by decide))
  have top : first = 1 := by omega
  have bottom : last = 2 := lastLine.trans (by decide)
  subst top bottom
  refine ⟨by decide, overruns_twoWords, fits, width, part, pieces.trans ?_, blocks 1 above below (by decide), underlined⟩
  exact (List.flatMap_cons ..).trans (congrArg _ (List.flatMap_singleton ..))

/-- So such a range does not always mark all to the end of the text. -/
theorem not_marked_to_end :
    ¬ ∀ (settings : FrameSettings) (text : String) (start stop : Position),
      Overruns (Text.sourceLines text.toList) start stop →
      settings.linesBelow.toNat + (Text.sourceLines text.toList).length < UInt64.size →
      ∃ first last width, ∃ part : Nat → List (List Char),
        0 < first ∧ last ≤ (Text.sourceLines text.toList).length ∧
        Text.pieces (render settings text (.range start stop)).toList =
          (List.range' first (last + 1 - first)).flatMap part ∧
        (∀ number, first ≤ number → number ≤ last →
          Block (Text.sourceLines text.toList) (.range start stop) width number (part number)) ∧
        ∀ number, start.spot.line ≤ number → number ≤ (Text.sourceLines text.toList).length →
          first ≤ number ∧ number ≤ last := by
  intro always
  obtain ⟨first, last, width, part, _, _, pieces, blocks, within⟩ :=
    always {} twoWords ⟨1, 1⟩ ⟨9, 3⟩ overruns_twoWords (by decide)
  obtain ⟨above, below⟩ := within 2 (by decide) (by decide)
  have few : ∀ row ∈ Text.pieces (render {} twoWords tooFar).toList, ∀ index < row.length,
      ¬ (row[index]? = some '^' ∧ row[index + 1]? = some '^' ∧ row[index + 2]? = some '^') := by decide
  have among (row : List Char) (member : row ∈ part 2) : row ∈ Text.pieces (render {} twoWords tooFar).toList :=
    pieces ▸ List.mem_flatMap.mpr ⟨2, List.mem_range'_1.mpr ⟨above, by omega⟩, member⟩
  have own := blocks 2 above below
  generalize part 2 = rows at own among
  cases own with
  | plain _ beyond => exact beyond (.inr ⟨⟨9, 3⟩, rfl, .inl (by decide)⟩)
  | @marked source row carets found _ _ _ under =>
    have fourLetters : some "cdef".toList = some source := found
    cases fourLetters
    have covers (column : Nat) : Covers (.range ⟨1, 1⟩ ⟨9, 3⟩) ⟨2, column⟩ := by
      refine ⟨?_, .inl (show 2 < 9 by decide)⟩
      rintro ((line : 2 < 1) | ⟨(line : 2 = 1), _⟩)
      · exact absurd line (by decide)
      · exact absurd line (by decide)
    have caret (column : Nat) (positive : 0 < column) (le : column ≤ 3) :
        carets[width + 4 + column]? = some '^' :=
      (under _).mpr ⟨column, rfl, .inl ⟨positive, Nat.le_succ_of_le le, covers column⟩⟩
    obtain ⟨inside, _⟩ := List.getElem?_eq_some_iff.mp (caret 1 (by decide) (by decide))
    exact few carets (among carets (.tail _ (.head _))) (width + 5) inside
      ⟨caret 1 (by decide) (by decide), caret 2 (by decide) (by decide), caret 3 (by decide) (by decide)⟩

end

end Polyglot.Frame
