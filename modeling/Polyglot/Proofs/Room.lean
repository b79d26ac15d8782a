import Polyglot.Proofs.Slices
import Polyglot.Proofs.Words

/-!
# Room for frames

A text takes at most half as many bytes as words can count, and so do the items of a list. What is made at once asks for
its room once; what grows is given at least twice its room where that runs short. `Checked.render` makes the frame of a
text with each request for room among the steps of `Words`, and `Needs` says of a step what there has to be room for: of
a row that it has twice the room of what stands before its carets (`caretRow_needs`), of all rows that their list does
not grow too far (`foldlM_writeLine_needs`).
-/

namespace Polyglot.Frame

open Answers (ok_bind error_bind pure_eq)
open Json.Reader (byteCount)
open Text (byteCount_append byteCount_eq_length byteCount_replicate utf8Size_of_isDigit)

/-- The most bytes that a text may take, or the items of a list. -/
def mostRoom : Nat := UInt64.size / 2 - 1

/-- The bytes of an item in a list of lines: where the line begins, and how long it is. -/
def lineSize : Nat := 16

/-- The bytes of an item in a list of rows: where the row begins, how long it is, and its room. -/
def rowSize : Nat := 24

/-- The most lines that a list can have which grows line by line: its room is doubled as long as it can be. -/
def mostLines : Nat := (mostRoom + 1) / (2 * lineSize)

namespace Checked

/-! ## Requests for room -/

/-- Asks for room for items of a number of bytes each. A request that is not too great is taken to be granted. -/
def reserve (size count : Nat) : Except Slip Nat :=
  if size * count ≤ mostRoom then .ok count else .error (.noRoom (size * count))

/-- Asks for room for more items than have been taken. Where the room that there is runs short, it is for at least twice
    as many items, and at least for some. -/
def widen (size least room taken more : Nat) : Except Slip Nat :=
  if taken + more ≤ room then .ok room else reserve size (max (max (2 * room) (taken + more)) least)

/-- A list that grows, and for how many items it has room. -/
structure Growing (α : Type) where
  items : List α
  room : Nat

/-- A list with one item more, of a number of bytes. -/
def push {α : Type} (size : Nat) (list : Growing α) (item : α) : Except Slip (Growing α) := do
  let room ← widen size 4 list.room list.items.length 1
  return ⟨list.items ++ [item], room⟩

/-- The lines of a text, in a list that grows line by line. -/
def listed (lines : List (List Char)) : Except Slip (List (List Char)) := do
  let list ← lines.foldlM (push lineSize) ⟨[], 0⟩
  return list.items

/-- A text with a part more. -/
def write (text : Growing Char) (part : List Char) : Except Slip (Growing Char) := do
  let room ← widen 1 8 text.room (byteCount text.items) (byteCount part)
  return ⟨text.items ++ part, room⟩

/-- A text that is written part by part, with some room to begin with. -/
def written (room : Nat) (parts : List (List Char)) : Except Slip (List Char) := do
  let text ← parts.foldlM write ⟨[], room⟩
  return text.items

/-! ## The making of a frame -/

/-- What stands after the bar in the row of a line. -/
def content (line : List Char) : Except Slip (List Char) :=
  if line = [] then return [] else written 2 [[' '], line]

/-- The row of a line. What stands after the bar is a text of its own before. -/
def sourceRow (width : Nat) (row : Row) : Except Slip (List Char) := do
  let content ← content row.line
  written 8 [if row.mark.isSome then ['>', ' '] else [' ', ' '], gutter width row.number, [' ', '|'], content]

/-- The row of carets under a line. What stands before the first caret is a text of its own before, and so are the
    carets. -/
def caretRow (width : Nat) (line : List Char) (mark : Mark) : Except Slip (List Char) := do
  let _before ← widen 1 8 0 0 (mark.column - 1)
  let _carets ← reserve 1 mark.count
  written 10 [[' ', ' '], List.replicate width ' ', [' ', '|', ' '], spacing line mark.column,
    List.replicate mark.count '^']

/-- The rows of a frame with those of a line. -/
def writeLine (lines : List (List Char)) (marks : List (Nat × Mark)) (width : Nat) (frame : Growing (List Char))
    (number : Nat) : Except Slip (Growing (List Char)) := do
  let row ← rowOf lines marks number
  let source ← sourceRow width row
  let frame ← push rowSize frame source
  match row.mark with
  | none => return frame
  | some mark =>
    let carets ← caretRow width row.line mark
    push rowSize frame carets

/-- The rows as one text. Room for all of it is asked for at once. -/
def join (rows : List (List Char)) : Except Slip (List Char) := do
  let _room ← reserve 1 (byteCount (['\n'].intercalate rows))
  return ['\n'].intercalate rows

/-- The frame of a location in a text, with all that may fail on the way. -/
def render (settings : FrameSettings) (text : String) (location : Location) : Except Slip String := do
  let lines ← listed (Text.sourceLines text.toList)
  let start ← bring lines.length location.start
  let stop ← stopOf lines start location.stop
  let marks ← marksOf lines start stop
  let extent ← extentOf settings lines start stop
  let room ← reserve rowSize extent.room
  let width := (toString extent.last).length
  let numbers := List.range' extent.first (extent.last + 1 - extent.first)
  let frame ← numbers.foldlM (writeLine lines marks width) ⟨[], room⟩
  let whole ← join frame.items
  return String.ofList whole

/-! ## What a step needs -/

/-- A step has its value just where something holds, and elsewhere asks for more room than there can be. -/
structure Needs {α : Type} (enough : Prop) (step : Except Slip α) (value : α) : Prop where
  made : enough → step = .ok value
  refused : ¬ enough → ∃ bytes, mostRoom < bytes ∧ step = .error (.noRoom bytes)

namespace Needs

variable {α β : Type} {enough more : Prop} {step : Except Slip α} {value : α}

theorem of_eq_ok (done : step = .ok value) (holds : enough) : Needs enough step value :=
  ⟨fun _ => done, fun fails => absurd holds fails⟩

theorem congr (needs : Needs enough step value) (same : more ↔ enough) : Needs more step value :=
  ⟨fun holds => needs.made (same.mp holds), fun fails => needs.refused fun holds => fails (same.mpr holds)⟩

theorem bind {next : α → Except Slip β} {result : β} (first : Needs enough step value)
    (later : enough → Needs more (next value) result) : Needs (enough ∧ more) (step >>= next) result := by
  by_cases holds : enough
  · rw [first.made holds, ok_bind]
    exact (later holds).congr (and_iff_right holds)
  · obtain ⟨bytes, exceeds, ends⟩ := first.refused holds
    refine ⟨fun both => absurd both.1 holds, fun _ => ⟨bytes, exceeds, ?_⟩⟩
    rw [ends, error_bind]

theorem after {next : α → Except Slip β} {result : β} (done : step = .ok value)
    (later : Needs enough (next value) result) : Needs enough (step >>= next) result := by
  rw [done, ok_bind]
  exact later

theorem map {result : β} {next : α → β} (first : Needs enough step value) (same : next value = result) :
    Needs enough (step >>= fun value => pure (next value)) result := by
  subst same
  exact (first.bind fun _ => of_eq_ok (pure_eq (next value)) trivial).congr (and_iff_left trivial).symm

end Needs

theorem reserve_needs (size count : Nat) : Needs (size * count ≤ mostRoom) (reserve size count) count :=
  ⟨fun fits => if_pos fits, fun exceeds => ⟨size * count, Nat.lt_of_not_le exceeds, if_neg exceeds⟩⟩

theorem widen_of_room {size least room taken more : Nat} (fits : taken + more ≤ room) :
    widen size least room taken more = .ok room :=
  if_pos fits

theorem widen_of_short {size least room taken more : Nat} (short : room < taken + more) :
    widen size least room taken more = reserve size (max (max (2 * room) (taken + more)) least) :=
  if_neg (Nat.not_le_of_lt short)

theorem widen_needs (size least room taken more : Nat) :
    Needs (taken + more ≤ room ∨ size * max (max (2 * room) (taken + more)) least ≤ mostRoom)
      (widen size least room taken more)
      (if taken + more ≤ room then room else max (max (2 * room) (taken + more)) least) := by
  by_cases fits : taken + more ≤ room
  · rw [if_pos fits]
    exact .of_eq_ok (widen_of_room fits) (.inl fits)
  · rw [if_neg fits, widen_of_short (Nat.lt_of_not_le fits)]
    exact (reserve_needs _ _).congr (or_iff_right fits)

theorem mostRoom_eq : mostRoom = 9223372036854775807 := by decide

/-! ## Lists that grow -/

section

variable {α : Type} {size : Nat} (list : Growing α)

theorem push_of_room (fits : list.items.length + 1 ≤ list.room) (item : α) :
    push size list item = .ok ⟨list.items ++ [item], list.room⟩ := by
  rw [push, widen_of_room fits, ok_bind, pure_eq]

theorem push_of_short (short : list.room < list.items.length + 1) (item : α) :
    push size list item =
      reserve size (max (max (2 * list.room) (list.items.length + 1)) 4) >>= fun room =>
        pure ⟨list.items ++ [item], room⟩ := by
  rw [push, widen_of_short short]

end

/-- Powers of two are doubled up to the most lines there can be, and not over that. -/
theorem eq_mostLines_of_isPowerOfTwo {room : Nat} (power : room.isPowerOfTwo) (most : room ≤ mostLines)
    (exceeds : mostLines < 2 * room) : room = mostLines := by
  have greatest : mostLines = 2 ^ 58 := by decide
  obtain ⟨exponent, rfl⟩ := power
  rw [greatest] at most exceeds ⊢
  rw [← Nat.pow_succ'] at exceeds
  have atMost : exponent ≤ 58 := (Nat.pow_le_pow_iff_right (by decide)).mp most
  have atLeast : 58 < exponent + 1 := (Nat.pow_lt_pow_iff_right (by decide)).mp exceeds
  rw [Nat.le_antisymm atMost (Nat.le_of_lt_succ atLeast)]

/-- A list with room for a power of two takes more lines as long as that power can be doubled. -/
theorem listed_of_room (rest items : List (List Char)) {room : Nat} (power : room.isPowerOfTwo) (least : 4 ≤ room)
    (most : room ≤ mostLines) (within : items.length ≤ room) :
    Needs (items.length + rest.length ≤ mostLines)
      (rest.foldlM (push lineSize) ⟨items, room⟩ >>= fun list => pure list.items) (items ++ rest) := by
  induction rest generalizing items room with
  | nil =>
    refine .of_eq_ok ?_ (Nat.le_trans within most)
    rw [List.foldlM_nil, pure_eq, ok_bind, pure_eq, List.append_nil]
  | cons line rest ih =>
    have longer : (items ++ [line]).length = items.length + 1 := List.length_append
    have whole : items ++ line :: rest = items ++ [line] ++ rest := List.append_cons _ _ _
    have count : items.length + (line :: rest).length = (items ++ [line]).length + rest.length := by
      rw [longer, List.length_cons]
      omega
    rw [List.foldlM_cons, bind_assoc, whole, count]
    by_cases fits : items.length + 1 ≤ room
    · exact Needs.after (push_of_room ⟨items, room⟩ fits line) (ih (items ++ [line]) power least most (longer ▸ fits))
    · -- The room is used up. Only the greatest power of two cannot be doubled, and then there are too many lines.
      have wider : max (max (2 * room) (items.length + 1)) 4 = 2 * room := by omega
      have asked := reserve_needs lineSize (2 * room)
      rw [push_of_short ⟨items, room⟩ (Nat.lt_of_not_le fits), wider, bind_assoc]
      by_cases further : 2 * room ≤ mostLines
      · have doubled : (2 * room).isPowerOfTwo := Nat.mul_comm room 2 ▸ Nat.isPowerOfTwo_mul_two_of_isPowerOfTwo power
        have granted : lineSize * (2 * room) ≤ mostRoom := Nat.le_trans (Nat.mul_le_mul_left _ further) (by decide)
        exact Needs.after (asked.made granted) (ih (items ++ [line]) doubled (by omega) further (by omega))
      · obtain rfl := eq_mostLines_of_isPowerOfTwo power most (Nat.lt_of_not_le further)
        obtain ⟨bytes, exceeds, ends⟩ := asked.refused (by decide)
        refine ⟨fun within => ?_, fun _ => ⟨bytes, exceeds, ?_⟩⟩
        · omega
        · rw [ends, error_bind]

theorem listed_needs (lines : List (List Char)) : Needs (lines.length ≤ mostLines) (listed lines) lines := by
  cases lines with
  | nil => exact .of_eq_ok rfl (Nat.zero_le _)
  | cons line rest =>
    rw [listed, List.foldlM_cons, bind_assoc]
    have first : push lineSize ⟨[], 0⟩ line = .ok ⟨[line], 4⟩ := rfl
    have more := listed_of_room rest [line] ⟨2, rfl⟩ (Nat.le_refl 4) (by decide) (Nat.le_of_ble_eq_true rfl)
    refine (Needs.after first more).congr ?_
    rw [List.length_cons, List.length_singleton, Nat.add_comm]

/-! ## Texts that grow -/

theorem write_needs (text : Growing Char) (part : List Char) :
    Needs (byteCount (text.items ++ part) ≤ text.room ∨
        max (max (2 * text.room) (byteCount (text.items ++ part))) 8 ≤ mostRoom) (write text part)
      ⟨text.items ++ part, if byteCount (text.items ++ part) ≤ text.room then text.room
        else max (max (2 * text.room) (byteCount (text.items ++ part))) 8⟩ := by
  have asked := widen_needs 1 8 text.room (byteCount text.items) (byteCount part)
  rw [Nat.one_mul] at asked
  rw [byteCount_append]
  exact asked.map rfl

/-- Short parts are written in little room, however a text is cut into them. -/
theorem foldlM_write_of_short (parts : List (List Char)) (text : Growing Char) (little : text.room ≤ 64)
    (short : byteCount (text.items ++ parts.flatten) ≤ 32) :
    ∃ room ≤ 64, parts.foldlM write text = .ok ⟨text.items ++ parts.flatten, room⟩ := by
  induction parts generalizing text with
  | nil => exact ⟨text.room, little, by rw [List.flatten_nil, List.append_nil]; rfl⟩
  | cons part rest ih =>
    rw [List.flatten_cons, ← List.append_assoc] at short ⊢
    have before : byteCount (text.items ++ part) ≤ 32 := by
      rw [byteCount_append] at short
      omega
    have first := (write_needs text part).made (.inr (by rw [mostRoom_eq]; omega))
    rw [List.foldlM_cons, first, ok_bind]
    refine ih _ ?_ short
    simp only
    split <;> omega

/-- A text of short parts and a last one of any length needs room for its bytes. -/
theorem written_needs (front : List (List Char)) {room : Nat} (little : room ≤ 64)
    (short : byteCount front.flatten ≤ 32) (part : List Char) :
    Needs (byteCount (front.flatten ++ part) ≤ mostRoom) (written room (front ++ [part])) (front.flatten ++ part) := by
  obtain ⟨wider, stillLittle, begun⟩ := foldlM_write_of_short front ⟨[], room⟩ little short
  have last := write_needs ⟨front.flatten, wider⟩ part
  rw [written, List.foldlM_append, bind_assoc]
  refine Needs.after begun ?_
  simp only [List.nil_append, List.foldlM_cons, List.foldlM_nil, bind_pure]
  refine (last.map rfl).congr ?_
  rw [mostRoom_eq]
  simp only
  omega

/-- With another long part before the last, it needs room for twice what stands before the last part, too. -/
theorem written_needs_two (front : List (List Char)) {room : Nat} (little : room ≤ 64)
    (short : byteCount front.flatten ≤ 32) (part : List Char) {last : List Char} (some : 0 < byteCount last) :
    Needs (2 * byteCount (front.flatten ++ part) ≤ mostRoom ∧ byteCount (front.flatten ++ part ++ last) ≤ mostRoom)
      (written room (front ++ [part, last])) (front.flatten ++ part ++ last) := by
  obtain ⟨wider, stillLittle, begun⟩ := foldlM_write_of_short front ⟨[], room⟩ little short
  have first := write_needs ⟨front.flatten, wider⟩ part
  have second := write_needs ⟨front.flatten ++ part, if byteCount (front.flatten ++ part) ≤ wider then wider
    else max (max (2 * wider) (byteCount (front.flatten ++ part))) 8⟩ last
  rw [written, List.foldlM_append, bind_assoc]
  refine Needs.after begun ?_
  simp only [List.nil_append, List.foldlM_cons, List.foldlM_nil, bind_pure, bind_assoc]
  refine (first.bind fun _ => second.map rfl).congr ?_
  simp only [mostRoom_eq, byteCount_append _ last]
  split <;> omega

/-! ## Rows -/

theorem byteCount_gutter (width number : Nat) : byteCount (gutter width number) = (gutter width number).length := by
  refine byteCount_eq_length fun c member => ?_
  rcases List.mem_append.mp member with member | member
  · rw [List.eq_of_mem_replicate member]
    rfl
  · exact utf8Size_of_isDigit (isDigit_of_mem_toString member)

theorem byteCount_spacing (line : List Char) (column : Nat) : byteCount (spacing line column) = column - 1 := by
  rw [byteCount_eq_length, spacing_length]
  intro c member
  rcases blank_of_mem_spacing member with rfl | rfl
  · rfl
  · rfl

theorem content_needs (line : List Char) :
    Needs (byteCount (if line = [] then [] else ' ' :: line) ≤ mostRoom) (content line)
      (if line = [] then [] else ' ' :: line) := by
  unfold content
  split
  · exact .of_eq_ok rfl (Nat.zero_le _)
  · exact written_needs [[' ']] (by decide) (by decide) line

theorem sourceRow_needs {width : Nat} {row : Row} (short : (gutter width row.number).length ≤ 20) :
    Needs (byteCount (Frame.sourceRow width row) ≤ mostRoom) (sourceRow width row) (Frame.sourceRow width row) := by
  let front := [if row.mark.isSome then ['>', ' '] else [' ', ' '], gutter width row.number, [' ', '|']]
  have marker : byteCount (if row.mark.isSome then ['>', ' '] else [' ', ' ']) = 2 := by
    split
    · rfl
    · rfl
  have bar : byteCount [' ', '|'] = 2 := rfl
  have fronted : byteCount front.flatten ≤ 32 := by
    simp only [front, List.flatten_cons, List.flatten_nil, List.append_nil, byteCount_append, byteCount_gutter, marker,
      bar]
    omega
  have whole : Frame.sourceRow width row = front.flatten ++ if row.line = [] then [] else ' ' :: row.line := by
    simp only [Frame.sourceRow, front, List.flatten_cons, List.flatten_nil, List.append_nil, List.append_assoc]
  have little : 8 ≤ 64 := by decide
  rw [whole]
  refine ((content_needs row.line).bind fun _ => written_needs front little fronted _).congr ?_
  rw [byteCount_append]
  omega

theorem byteCount_caretRow (width : Nat) (line : List Char) {mark : Mark} (column : 0 < mark.column) :
    byteCount (Frame.caretRow width line mark) = width + 4 + mark.column + mark.count := by
  have margin : byteCount [' ', ' '] = 2 := rfl
  have bar : byteCount [' ', '|', ' '] = 3 := rfl
  have blanks : byteCount (List.replicate width ' ') = width := byteCount_replicate rfl width
  have carets : byteCount (List.replicate mark.count '^') = mark.count := byteCount_replicate rfl mark.count
  rw [Frame.caretRow]
  simp only [byteCount_append, margin, bar, blanks, carets, byteCount_spacing]
  omega

/-- What stands before the first caret needs room for the columns before it. -/
theorem before_needs (column : Nat) :
    ∃ room, Needs (column - 1 ≤ mostRoom) (widen 1 8 0 0 (column - 1)) room := by
  refine ⟨_, (widen_needs 1 8 0 0 (column - 1)).congr ?_⟩
  rw [mostRoom_eq]
  omega

/-- A row of carets needs room for its bytes, and for twice what stands before the first caret. -/
theorem caretRow_needs {width : Nat} (short : width ≤ 20) (line : List Char) {mark : Mark} (column : 0 < mark.column)
    (count : 0 < mark.count) :
    Needs (2 * (width + 4 + mark.column) ≤ mostRoom ∧ byteCount (Frame.caretRow width line mark) ≤ mostRoom)
      (caretRow width line mark) (Frame.caretRow width line mark) := by
  let front := [[' ', ' '], List.replicate width ' ', [' ', '|', ' ']]
  have whole : Frame.caretRow width line mark =
      front.flatten ++ spacing line mark.column ++ List.replicate mark.count '^' := by
    simp only [Frame.caretRow, front, List.flatten_cons, List.flatten_nil, List.append_nil, List.append_assoc]
  have carets : byteCount (List.replicate mark.count '^') = mark.count := byteCount_replicate rfl mark.count
  have total := byteCount_caretRow width line column
  rw [whole, byteCount_append, byteCount_append, byteCount_spacing, carets] at total
  have little : 10 ≤ 64 := by decide
  obtain ⟨_, before⟩ := before_needs mark.column
  have row := written_needs_two front little (by omega) (spacing line mark.column) (carets.symm ▸ count)
  rw [whole]
  refine (before.bind fun _ => (reserve_needs 1 mark.count).bind fun _ => row).congr ?_
  simp only [byteCount_append, carets, byteCount_spacing]
  omega

/-! ## The rows of a frame -/

/-- The room of a list of rows, which is doubled once. -/
def roomOf (room count : Nat) : Nat := if count ≤ room then room else 2 * room

/-- A list of no more than twice as many rows as it had room for to begin with takes a row more. -/
theorem push_needs {room : Nat} (two : 2 ≤ room) (rows : List (List Char)) (within : rows.length < 2 * room)
    (granted : room < rows.length → rowSize * (2 * room) ≤ mostRoom) (row : List Char) :
    Needs (rows.length + 1 ≤ room ∨ rowSize * (2 * room) ≤ mostRoom)
      (push rowSize ⟨rows, roomOf room rows.length⟩ row) ⟨rows ++ [row], roomOf room (rows ++ [row]).length⟩ := by
  unfold roomOf
  rw [List.length_append, List.length_singleton]
  by_cases fits : rows.length + 1 ≤ room
  · rw [if_pos (Nat.le_of_succ_le fits), if_pos fits]
    exact .of_eq_ok (push_of_room ⟨rows, room⟩ fits row) (.inl fits)
  · rw [if_neg fits]
    by_cases full : rows.length ≤ room
    · have wider : max (max (2 * room) (rows.length + 1)) 4 = 2 * room := by omega
      rw [if_pos full, push_of_short ⟨rows, room⟩ (Nat.lt_of_not_le fits), wider]
      exact ((reserve_needs rowSize (2 * room)).map rfl).congr (or_iff_right fits)
    · rw [if_neg full]
      exact .of_eq_ok (push_of_room ⟨rows, 2 * room⟩ within row) (.inr (granted (Nat.lt_of_not_le full)))

/-- The rows of a line are texts that there is room for, and what stands before the first caret has room twice. -/
structure RowsFit (width : Nat) (row : Row) : Prop where
  source : byteCount (Frame.sourceRow width row) ≤ mostRoom
  carets : ∀ mark ∈ row.mark, 2 * (width + 4 + mark.column) ≤ mostRoom ∧
    byteCount (Frame.caretRow width row.line mark) ≤ mostRoom

variable {lines : List (List Char)} {marks : List (Nat × Mark)} {width room : Nat}

theorem rowsFit_of_plain {row : Row} (plain : row.mark = none) :
    RowsFit width row ↔ byteCount (Frame.sourceRow width row) ≤ mostRoom := by
  refine ⟨RowsFit.source, fun source => ⟨source, fun mark marked => ?_⟩⟩
  rw [plain] at marked
  cases marked

theorem rowsFit_of_marked {row : Row} {mark : Mark} (marked : row.mark = some mark) :
    RowsFit width row ↔ byteCount (Frame.sourceRow width row) ≤ mostRoom ∧
      2 * (width + 4 + mark.column) ≤ mostRoom ∧ byteCount (Frame.caretRow width row.line mark) ≤ mostRoom := by
  refine ⟨fun fits => ⟨fits.source, fits.carets mark marked⟩, fun ⟨source, carets⟩ => ⟨source, fun other found => ?_⟩⟩
  cases marked.symm.trans found
  exact carets

/-- The rows of a line need to fit, and the list of rows to have room for them, or to be given twice its room. -/
theorem writeLine_needs {row : Row} {number : Nat} (found : rowOf lines marks number = .ok row) (narrow : width ≤ 20)
    (short : (gutter width row.number).length ≤ 20) (positive : ∀ mark ∈ row.mark, 0 < mark.column ∧ 0 < mark.count)
    (two : 2 ≤ room) {rows : List (List Char)} (within : (rows ++ renderRow width row).length ≤ 2 * room)
    (granted : room < rows.length → rowSize * (2 * room) ≤ mostRoom) :
    Needs (RowsFit width row ∧ ((rows ++ renderRow width row).length ≤ room ∨ rowSize * (2 * room) ≤ mostRoom))
      (writeLine lines marks width ⟨rows, roomOf room rows.length⟩ number)
      ⟨rows ++ renderRow width row, roomOf room (rows ++ renderRow width row).length⟩ := by
  refine Needs.after found ?_
  have source := sourceRow_needs short
  have longer : (rows ++ [Frame.sourceRow width row]).length = rows.length + 1 := List.length_append
  cases marked : row.mark with
  | none =>
    rw [renderRow_of_plain marked] at within ⊢
    simp only [bind_pure]
    refine (source.bind fun _ => push_needs two rows (by omega) granted _).congr ?_
    rw [rowsFit_of_plain marked, longer]
  | some mark =>
    rw [renderRow_of_marked marked] at within ⊢
    have carets := caretRow_needs narrow row.line (positive mark marked).1 (positive mark marked).2
    have whole : rows ++ [Frame.sourceRow width row, Frame.caretRow width row.line mark] =
        rows ++ [Frame.sourceRow width row] ++ [Frame.caretRow width row.line mark] := List.append_cons _ _ _
    have longest : (rows ++ [Frame.sourceRow width row] ++ [Frame.caretRow width row.line mark]).length =
        rows.length + 1 + 1 := by rw [List.length_append, longer, List.length_singleton]
    rw [whole] at within ⊢
    refine (source.bind fun _ => (push_needs two rows (by omega) granted _).bind fun roomy =>
      carets.bind fun _ => push_needs two (rows ++ [Frame.sourceRow width row]) (by omega) (by omega) _).congr ?_
    rw [rowsFit_of_marked marked, longer, longest]
    omega

theorem positive_of_mark {location : Location} {number : Nat} {mark : Mark}
    (marked : (Frame.rowOf lines location number).mark = some mark) : 0 < mark.column ∧ 0 < mark.count := by
  rw [mark_rowOf] at marked
  split at marked
  · cases marked
    exact ⟨markAt_column_pos lines location number, markAt_count_pos lines location number⟩
  · cases marked

/-- The rows of the lines that a location shows. -/
def rowsOf (lines : List (List Char)) (location : Location) (width : Nat) (numbers : List Nat) : List (List Char) :=
  numbers.flatMap fun number => renderRow width (Frame.rowOf lines location number)

theorem foldlM_writeLine_needs {location : Location} (narrow : width ≤ 20) (two : 2 ≤ room) (numbers : List Nat)
    (found : ∀ number ∈ numbers, rowOf lines marks number = .ok (Frame.rowOf lines location number))
    (short : ∀ number ∈ numbers, (gutter width number).length ≤ 20) (rows : List (List Char))
    (within : (rows ++ rowsOf lines location width numbers).length ≤ 2 * room)
    (granted : room < rows.length → rowSize * (2 * room) ≤ mostRoom) :
    Needs ((∀ number ∈ numbers, RowsFit width (Frame.rowOf lines location number)) ∧
        ((rows ++ rowsOf lines location width numbers).length ≤ room ∨ rowSize * (2 * room) ≤ mostRoom))
      (numbers.foldlM (writeLine lines marks width) ⟨rows, roomOf room rows.length⟩)
      ⟨rows ++ rowsOf lines location width numbers,
        roomOf room (rows ++ rowsOf lines location width numbers).length⟩ := by
  induction numbers generalizing rows with
  | nil =>
    have none : rows ++ rowsOf lines location width [] = rows := List.append_nil rows
    rw [none]
    refine .of_eq_ok rfl ⟨nofun, ?_⟩
    by_cases full : rows.length ≤ room
    · exact .inl full
    · exact .inr (granted (Nat.lt_of_not_le full))
  | cons number rest ih =>
    have whole : rows ++ rowsOf lines location width (number :: rest) =
        rows ++ renderRow width (Frame.rowOf lines location number) ++ rowsOf lines location width rest :=
      (List.append_assoc _ _ _).symm
    have longer : (rows ++ renderRow width (Frame.rowOf lines location number)).length ≤
        (rows ++ renderRow width (Frame.rowOf lines location number) ++ rowsOf lines location width rest).length :=
      (List.sublist_append_left _ _).length_le
    rw [whole] at within ⊢
    rw [List.foldlM_cons]
    -- `roomOf` is what the step hands on: from the rows so far alone it is known whether their list was doubled.
    have first := writeLine_needs (found number List.mem_cons_self) narrow (short number List.mem_cons_self)
      (fun mark marked => positive_of_mark marked) two (Nat.le_trans longer within) granted
    refine (first.bind fun roomy => ih (fun other member => found other (List.mem_cons_of_mem number member))
      (fun other member => short other (List.mem_cons_of_mem number member)) _ within fun short => ?_).congr ?_
    · exact roomy.2.resolve_left (Nat.not_le_of_lt short)
    · rw [List.forall_mem_cons]
      constructor
      · rintro ⟨⟨here, later⟩, roomy⟩
        exact ⟨⟨here, roomy.imp_left (Nat.le_trans longer)⟩, later, roomy⟩
      · rintro ⟨⟨here, _⟩, later, roomy⟩
        exact ⟨⟨here, later⟩, roomy⟩

theorem join_needs (rows : List (List Char)) :
    Needs (byteCount (['\n'].intercalate rows) ≤ mostRoom) (join rows) (['\n'].intercalate rows) := by
  refine ((reserve_needs 1 _).map rfl).congr ?_
  rw [Nat.one_mul]

end Checked

end Polyglot.Frame
