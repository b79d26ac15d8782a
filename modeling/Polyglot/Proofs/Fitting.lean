import Polyglot.Proofs.Room

/-!
# Frames that fit

Where a word can count the last marked line and the lines below it together, a frame is made just when there is room
for it and for what it is made of (`Fits`), and what is made is the frame of the text (`Checked.render_needs`). Elsewhere
that sum is the step that is not possible. No other step of the reckoning ever fails (`frame_in_words`).
-/

namespace Polyglot.Frame

open Answers (ok_bind error_bind)
open Json.Reader (byteCount)

/-! ## What there has to be room for -/

/-- There is room for a frame and for what it is made of: for the list of the lines; for the list of the rows, which
    begins with room for one row more than there are lines shown and is given twice as much where several lines are
    marked; for what stands before the carets of the first marked line, and as much again; and for the frame. -/
structure Fits (settings : FrameSettings) (text : String) (location : Location) : Prop where
  lines : (Text.sourceLines text.toList).length ≤ mostLines
  rows : firstMarked (Text.sourceLines text.toList) location < finalMarked (Text.sourceLines text.toList) location →
    rowSize * (2 * (lastNumber settings (Text.sourceLines text.toList) location -
      firstNumber settings (Text.sourceLines text.toList) location + 2)) ≤ mostRoom
  front : 2 * (gutterWidth settings (Text.sourceLines text.toList) location + 4 + max location.start.column.toNat 1) ≤
    mostRoom
  whole : byteCount (render settings text location).toList ≤ mostRoom

section

variable {settings : FrameSettings} {text : String} {location : Location}

theorem measured_sourceLines (held : byteCount text.toList ≤ mostRoom) :
    Checked.Measured (Text.sourceLines text.toList) := by
  have count := Text.length_le_byteCount text.toList
  have most : mostRoom + 3 < UInt64.size := by decide
  refine ⟨Text.sourceLines_length_pos text.toList, ?_, fun line member => ?_⟩
  · have le := Text.length_sourceLines_le text.toList
    omega
  · have le := Text.length_le_of_mem_sourceLines member
    omega

theorem gutterWidth_le {lines : List (List Char)} (measured : Checked.Measured lines) (settings : FrameSettings)
    (location : Location) : gutterWidth settings lines location ≤ 20 := by
  have count := measured.count
  have inText := lastNumber_le settings lines location
  have le : lastNumber settings lines location ≤ 18446744073709551616 := by
    rw [UInt64.size] at count
    omega
  exact digits_length_le le

theorem toList_render (settings : FrameSettings) (text : String) (location : Location) :
    (render settings text location).toList = ['\n'].intercalate
      (Checked.rowsOf (Text.sourceLines text.toList) location
        (gutterWidth settings (Text.sourceLines text.toList) location)
        (shown settings (Text.sourceLines text.toList) location)) := by
  rw [render, String.toList_ofList, rows_eq, List.flatMap_map]
  rfl

/-- A frame that shows the marked lines has a row for each line shown, and one more for each of those. -/
theorem length_rowsOf {lines : List (List Char)} (nonempty : 0 < lines.length)
    (counted : finalMarked lines location + settings.linesBelow.toNat < UInt64.size) :
    (Checked.rowsOf lines location (gutterWidth settings lines location) (shown settings lines location)).length =
      (lastNumber settings lines location - firstNumber settings lines location + 1) +
        (finalMarked lines location - firstMarked lines location + 1) := by
  obtain ⟨_, ordered, _⟩ := marked_bounds nonempty location
  have final := marked_shown_of_counted nonempty counted ordered (Nat.le_refl _)
  exact (excerpt_of_parts (firstNumber_pos settings lines location) (firstNumber_le nonempty settings location)
    ordered (mem_shown.mp final).2 (lastNumber_le settings lines location)
    fun number above below => part_renderRow (mem_shown.mpr ⟨above, below⟩)).length_eq

/-- What is written before the first caret of a line is longest in the line where a location starts. -/
theorem column_le_of_mark {lines : List (List Char)} {number : Nat} {mark : Mark}
    (marked : (rowOf lines location number).mark = some mark) :
    mark.column ≤ max location.start.column.toNat 1 := by
  rw [mark_rowOf] at marked
  split at marked
  · cases marked
    simp only [markAt, caretStart]
    split
    · exact Nat.le_refl _
    · exact Nat.le_max_right _ _
  · cases marked

/-- The rows of a frame that fits are no longer than the frame, and none has more before its carets than the first
    marked line. -/
theorem Fits.rowsFit (fits : Fits settings text location) {number : Nat}
    (member : number ∈ shown settings (Text.sourceLines text.toList) location) :
    Checked.RowsFit (gutterWidth settings (Text.sourceLines text.toList) location)
      (rowOf (Text.sourceLines text.toList) location number) := by
  have whole := fits.whole
  have front := fits.front
  rw [toList_render] at whole
  have le {row : List Char} (among : row ∈ renderRow (gutterWidth settings (Text.sourceLines text.toList) location)
      (rowOf (Text.sourceLines text.toList) location number)) : byteCount row ≤ mostRoom :=
    Nat.le_trans (Text.byteCount_le_intercalate (List.mem_flatMap.mpr ⟨number, member, among⟩)) whole
  refine ⟨le List.mem_cons_self, fun mark marked => ⟨?_, le ?_⟩⟩
  · have column := column_le_of_mark marked
    omega
  · rw [renderRow_of_marked marked]
    exact List.mem_cons_of_mem _ List.mem_cons_self

/-- The carets of a frame that fits do not go further than there is room. -/
theorem Fits.carets_le (fits : Fits settings text location) {number : Nat} {mark : Mark}
    (member : number ∈ shown settings (Text.sourceLines text.toList) location)
    (marked : (rowOf (Text.sourceLines text.toList) location number).mark = some mark) :
    gutterWidth settings (Text.sourceLines text.toList) location + 4 + mark.column + mark.count ≤ mostRoom := by
  have row := ((fits.rowsFit member).carets mark marked).2
  rwa [Checked.byteCount_caretRow _ _ (Checked.positive_of_mark marked).1] at row

theorem front_le_of_rowsFit {width : Nat} {lines : List (List Char)} (nonempty : 0 < lines.length)
    (fit : Checked.RowsFit width (rowOf lines location (firstMarked lines location))) :
    2 * (width + 4 + max location.start.column.toNat 1) ≤ mostRoom := by
  obtain ⟨_, ordered, _⟩ := marked_bounds nonempty location
  have marked := mark_rowOf lines location (firstMarked lines location)
  rw [if_pos ⟨Nat.le_refl _, ordered⟩] at marked
  have column : (markAt lines location (firstMarked lines location)).column = max location.start.column.toNat 1 :=
    if_pos rfl
  exact column ▸ (fit.carets _ marked).1

/-- Room for one row more than there are lines shown runs short just where several lines are marked. -/
theorem Checked.rows_needs {lines : List (List Char)} (measured : Measured lines)
    (counted : finalMarked lines location + settings.linesBelow.toNat < UInt64.size) {marks : List (Nat × Mark)}
    (lookups : ∀ number, marks.lookup number = (Frame.rowOf lines location number).mark) {room : Nat}
    (two : lastNumber settings lines location - firstNumber settings lines location + 2 = room) :
    ∃ wider, Needs
      ((∀ number ∈ shown settings lines location,
          RowsFit (gutterWidth settings lines location) (Frame.rowOf lines location number)) ∧
        (firstMarked lines location < finalMarked lines location → rowSize * (2 * room) ≤ mostRoom))
      ((shown settings lines location).foldlM (writeLine lines marks (gutterWidth settings lines location)) ⟨[], room⟩)
      ⟨rowsOf lines location (gutterWidth settings lines location) (shown settings lines location), wider⟩ := by
  have nonempty := measured.nonempty
  have narrow := gutterWidth_le measured settings location
  have positive := firstNumber_pos settings lines location
  have above := firstNumber_le nonempty settings location
  have inText := lastNumber_le settings lines location
  obtain ⟨_, ordered, _⟩ := marked_bounds nonempty location
  have below := (mem_shown.mp (marked_shown_of_counted nonempty counted ordered (Nat.le_refl _))).2
  have found : ∀ number ∈ shown settings lines location,
      rowOf lines marks number = .ok (Frame.rowOf lines location number) := by
    intro number member
    have := mem_shown.mp member
    exact rowOf_eq lookups (by omega) (by omega)
  have short : ∀ number ∈ shown settings lines location,
      (gutter (gutterWidth settings lines location) number).length ≤ 20 :=
    fun number member => (gutter_length (mem_shown.mp member).2).symm ▸ narrow
  have count := length_rowsOf nonempty counted
  have within : ([] ++ rowsOf lines location (gutterWidth settings lines location)
      (shown settings lines location)).length ≤ 2 * room := by
    rw [List.nil_append, count]
    omega
  refine ⟨_, (foldlM_writeLine_needs narrow (by omega) _ found short [] within nofun).congr ?_⟩
  rw [List.nil_append, count]
  -- There is a row for each line shown and one more for each that is marked: over the room where two are.
  refine and_congr_right fun _ => ?_
  constructor
  · intro several
    by_cases more : firstMarked lines location < finalMarked lines location
    · exact .inr (several more)
    · exact .inl (by omega)
  · rintro (single | granted) more
    · omega
    · exact granted

/-- Where a word can count the last marked line and the lines below it together, a frame needs nothing but to fit. -/
theorem Checked.render_needs (held : byteCount text.toList ≤ mostRoom)
    (counted : finalMarked (Text.sourceLines text.toList) location + settings.linesBelow.toNat < UInt64.size) :
    Needs (Fits settings text location) (Checked.render settings text location)
      (Frame.render settings text location) := by
  have measured := measured_sourceLines held
  obtain ⟨marks, found, lookups⟩ := marksOf_eq measured location
  have start := Checked.bring_eq measured location.start
  have stop := Checked.stopOf_eq measured location
  have extent := extentOf_eq measured counted
  obtain ⟨wider, rows⟩ := rows_needs measured counted lookups rfl
  have whole := toList_render settings text location
  refine ((listed_needs (Text.sourceLines text.toList)).bind fun _ => Needs.after start <| Needs.after stop <|
    Needs.after found <| Needs.after extent <| (reserve_needs rowSize _).bind fun _ =>
    rows.bind fun _ => (join_needs _).map ?_).congr ?_
  · rw [← whole, String.ofList_toList]
  · rw [← whole]
    constructor
    · intro fits
      -- The room that is asked for before the rows is no condition of its own: there is room for as many lines.
      have room : rowSize * (mostLines + 2) ≤ mostRoom := by decide
      have inText := lastNumber_le settings (Text.sourceLines text.toList) location
      have count := fits.lines
      refine ⟨count, Nat.le_trans (Nat.mul_le_mul_left rowSize ?_) room,
        ⟨fun number member => fits.rowsFit member, fits.rows⟩, fits.whole⟩
      exact Nat.add_le_add_right (Nat.le_trans (Nat.sub_le _ _) (Nat.le_trans inText count)) 2
    · rintro ⟨lines, _, ⟨rowsFit, rows⟩, whole⟩
      obtain ⟨_, ordered, _⟩ := marked_bounds measured.nonempty location
      have present := marked_shown_of_counted measured.nonempty counted (Nat.le_refl _) ordered
      exact ⟨lines, rows, front_le_of_rowsFit measured.nonempty (rowsFit _ present), whole⟩

/-- Where it cannot, their sum is the step that is not possible. -/
theorem Checked.render_eq_error (held : byteCount text.toList ≤ mostRoom)
    (few : (Text.sourceLines text.toList).length ≤ mostLines)
    (exceeds : UInt64.size ≤
      finalMarked (Text.sourceLines text.toList) location + settings.linesBelow.toNat) :
    Checked.render settings text location =
      .error (.overflow (finalMarked (Text.sourceLines text.toList) location) settings.linesBelow.toNat) := by
  have measured := measured_sourceLines held
  obtain ⟨marks, found, _⟩ := marksOf_eq measured location
  have start : bring (Text.sourceLines text.toList).length location.start =
      .ok (startOf (Text.sourceLines text.toList) location) := Checked.bring_eq measured location.start
  rw [render, (listed_needs _).made few, ok_bind, start, ok_bind, Checked.stopOf_eq measured, ok_bind, found, ok_bind,
    extentOf_eq_error exceeds, error_bind]

end

/-! ## Which frames are made -/

theorem pieces_around_start {settings : FrameSettings} {text : String} {location : Location}
    (present : firstMarked (Text.sourceLines text.toList) location ∈
      shown settings (Text.sourceLines text.toList) location) :
    ∃ width above row carets below,
      Text.pieces (render settings text location).toList = above ++ row :: carets :: below ∧
      ShowsLine ['>', ' '] width (firstMarked (Text.sourceLines text.toList) location)
        (lineAt (Text.sourceLines text.toList) (firstMarked (Text.sourceLines text.toList) location)) row ∧
      ShowsCarets width carets := by
  obtain ⟨_, ordered, _⟩ := marked_bounds (Text.sourceLines_length_pos text.toList) location
  have part := part_renderRow present
  have rendered := pieces_render_of_mem present
  generalize gutterWidth settings (Text.sourceLines text.toList) location = width at part rendered
  obtain ⟨above, below, numbers⟩ := List.append_of_mem present
  rw [numbers, List.flatMap_append, List.flatMap_cons] at rendered
  generalize renderRow width (rowOf (Text.sourceLines text.toList) location
    (firstMarked (Text.sourceLines text.toList) location)) = rows at part rendered
  cases part with
  | plain fails => exact absurd ⟨Nat.le_refl _, ordered⟩ fails
  | @marked line row carets _ found shows under =>
    exact ⟨width, _, row, carets, _, rendered, lineAt_of_getElem? found ▸ shows, under⟩

/-- Where the sum of the last marked line and the lines below is over the greatest word, it becomes a line before
    the last marked one. -/
theorem lastNumber_lt_of_over {settings : FrameSettings} {lines : List (List Char)} {location : Location}
    (measured : Checked.Measured lines)
    (exceeds : UInt64.size ≤ finalMarked lines location + settings.linesBelow.toNat) :
    lastNumber settings lines location < finalMarked lines location := by
  obtain ⟨_, _, inText⟩ := marked_bounds measured.nonempty location
  have below : settings.linesBelow.toNat < UInt64.size := settings.linesBelow.toNat_lt_size
  have count := measured.count
  have wrapped : (finalMarked lines location + settings.linesBelow.toNat) % UInt64.size =
      finalMarked lines location + settings.linesBelow.toNat - UInt64.size := by
    rw [Nat.mod_eq_sub_mod exceeds, Nat.mod_eq_of_lt (by omega)]
  have last : lastNumber settings lines location ≤
      (finalMarked lines location + settings.linesBelow.toNat) % UInt64.size := Nat.min_le_left _ _
  omega

/-- A frame is made without a step that words do not allow, just as long as a word can count the last marked line and
    the lines below it together. It is then made where it fits, with the line where the location starts, or the nearest
    to it, and carets under that line; elsewhere it ends with a request for more room than there can be. When a word
    cannot count them, this sum is the step that is not possible, unless there was no room for the list of the lines
    before; and what it becomes leaves out the last marked line. -/
theorem frame_in_words (settings : FrameSettings) (text : String) (location : Location)
    (held : byteCount text.toList ≤ mostRoom) :
    (finalMarked (Text.sourceLines text.toList) location + settings.linesBelow.toNat < UInt64.size →
      (Fits settings text location →
        Checked.render settings text location = .ok (render settings text location) ∧
        ∃ start width above row carets below,
          start = min (max location.start.line.toNat 1) (Text.sourceLines text.toList).length ∧
          Text.pieces (render settings text location).toList = above ++ row :: carets :: below ∧
          ShowsLine ['>', ' '] width start (lineAt (Text.sourceLines text.toList) start) row ∧
          ShowsCarets width carets) ∧
      (¬ Fits settings text location →
        ∃ bytes, mostRoom < bytes ∧ Checked.render settings text location = .error (.noRoom bytes))) ∧
    (UInt64.size ≤ finalMarked (Text.sourceLines text.toList) location + settings.linesBelow.toNat →
      ((Text.sourceLines text.toList).length ≤ mostLines →
        Checked.render settings text location =
          .error (.overflow (finalMarked (Text.sourceLines text.toList) location) settings.linesBelow.toNat)) ∧
      (mostLines < (Text.sourceLines text.toList).length →
        ∃ bytes, mostRoom < bytes ∧ Checked.render settings text location = .error (.noRoom bytes)) ∧
      ∀ row ∈ rows settings (Text.sourceLines text.toList) location,
        row.number < finalMarked (Text.sourceLines text.toList) location) := by
  have measured := measured_sourceLines held
  refine ⟨fun counted => ?_, fun exceeds => ⟨fun few => Checked.render_eq_error held few exceeds, fun many => ?_,
    fun row member => ?_⟩⟩
  · have needs := Checked.render_needs held counted
    obtain ⟨_, ordered, _⟩ := marked_bounds measured.nonempty location
    have present := marked_shown_of_counted measured.nonempty counted (Nat.le_refl _) ordered
    obtain ⟨width, above, row, carets, below, pieces, shows, under⟩ := pieces_around_start present
    exact ⟨fun fits => ⟨needs.made fits, _, width, above, row, carets, below, rfl, pieces, shows, under⟩,
      needs.refused⟩
  · obtain ⟨bytes, exceeds, ends⟩ := (Checked.listed_needs _).refused (Nat.not_le_of_lt many)
    exact ⟨bytes, exceeds, by rw [Checked.render, ends, error_bind]⟩
  · rw [rows_eq] at member
    obtain ⟨number, numbers, rfl⟩ := List.mem_map.mp member
    exact Nat.lt_of_le_of_lt (mem_shown.mp numbers).2 (lastNumber_lt_of_over measured exceeds)

section

/-- As many lines above as words can count, and one less below. -/
def greatest : FrameSettings := ⟨18446744073709551615, 18446744073709551614⟩

def tooGreat : FrameSettings := ⟨2, 18446744073709551615⟩

def lastWord : Location := .point ⟨18446744073709551615, 1⟩

/-- A range to the last column that words can count. -/
def lastColumn : Location := .range ⟨1, 1⟩ ⟨1, 18446744073709551615⟩

/-- The only line of a text is in a frame for a point in the last line that words can count, but there is no room for
    carets to the last column. -/
theorem frame_in_words_of_greatest :
    byteCount "a".toList ≤ mostRoom ∧
      finalMarked (Text.sourceLines "a".toList) lastWord + greatest.linesBelow.toNat < UInt64.size ∧
      Fits greatest "a" lastWord ∧
      Checked.render greatest "a" lastWord = .ok "> 1 | a\n    | ^" ∧
      finalMarked (Text.sourceLines "a".toList) lastColumn + greatest.linesBelow.toNat < UInt64.size ∧
      ¬ Fits greatest "a" lastColumn ∧
      (∃ bytes, mostRoom < bytes ∧ Checked.render greatest "a" lastColumn = .error (.noRoom bytes)) ∧
      UInt64.size ≤ finalMarked (Text.sourceLines "a".toList) lastWord + tooGreat.linesBelow.toNat ∧
      Checked.render tooGreat "a" lastWord = .error (.overflow 1 18446744073709551615) := by
  have held : byteCount "a".toList ≤ mostRoom := by decide
  have counted : finalMarked (Text.sourceLines "a".toList) lastWord + greatest.linesBelow.toNat < UInt64.size := by
    decide
  have fits : Fits greatest "a" lastWord := ⟨by decide, by decide, by decide, by decide⟩
  have also : finalMarked (Text.sourceLines "a".toList) lastColumn + greatest.linesBelow.toNat < UInt64.size := by
    decide
  have tooLong : ¬ Fits greatest "a" lastColumn := by
    intro fits
    have marked : (rowOf (Text.sourceLines "a".toList) lastColumn 1).mark = some ⟨1, 18446744073709551614⟩ := by decide
    exact absurd (fits.carets_le (by decide) marked) (by decide)
  have exceeds : UInt64.size ≤ finalMarked (Text.sourceLines "a".toList) lastWord + tooGreat.linesBelow.toNat := by
    decide
  have frame : render greatest "a" lastWord = "> 1 | a\n    | ^" := by decide
  exact ⟨held, counted, fits, ((frame_in_words greatest "a" lastWord held).1 counted).1 fits |>.1.trans
    (congrArg _ frame), also, tooLong, ((frame_in_words greatest "a" lastColumn held).1 also).2 tooLong, exceeds,
    ((frame_in_words tooGreat "a" lastWord held).2 exceeds).1 (by decide)⟩

/-- So not every frame is made in words, and a frame may be empty. -/
theorem not_always_in_words :
    ¬ ∀ (settings : FrameSettings) (text : String) (location : Location), byteCount text.toList ≤ mostRoom →
      (∃ frame, Checked.render settings text location = .ok frame) ∧ render settings text location ≠ "" := by
  intro always
  obtain ⟨_, nonempty⟩ := always tooGreat "a" (.point ⟨1, 1⟩) (by decide)
  exact nonempty (by decide)

end

end Polyglot.Frame
