import Polyglot.Proofs.Answers
import Polyglot.Proofs.Excerpt

/-!
# The arithmetic of frames

Lines, columns and settings are words, and so is what is reckoned from them. The steps here end where words or the
lines do not suffice; differences that are written plainly stop at zero. What is marked is found without such an end
(`marksOf_eq`), and what is shown just as long as a word can count the last marked line and the lines below it together
(`extentOf_eq`, `extentOf_eq_error`).
-/

namespace Polyglot.Frame

/-- A step that is not possible: a sum over the greatest word, a difference below zero, a line that a text does not
    have, bounds in the wrong order, or room for more bytes than there can be. -/
inductive Slip
  | overflow (left right : Nat)
  | underflow (left right : Nat)
  | noLine (index : Nat)
  | crossed (low high : Nat)
  | noRoom (bytes : Nat)
  deriving DecidableEq, Repr

namespace Checked

open Answers (ok_bind error_bind pure_eq mapM_eq_ok_map)

/-! ## Steps -/

def add (left right : Nat) : Except Slip Nat :=
  if left + right < UInt64.size then .ok (left + right) else .error (.overflow left right)

def sub (left right : Nat) : Except Slip Nat :=
  if right ≤ left then .ok (left - right) else .error (.underflow left right)

def clamp (value low high : Nat) : Except Slip Nat :=
  if low ≤ high then .ok (min (max value low) high) else .error (.crossed low high)

def lineOf (lines : List (List Char)) (index : Nat) : Except Slip (List Char) :=
  match lines[index]? with
  | some line => .ok line
  | none => .error (.noLine index)

/-! ## The layout of a frame -/

def bring (lineCount : Nat) (position : Position) : Except Slip Spot := do
  let line ← clamp position.line.toNat 1 lineCount
  return ⟨line, max position.column.toNat 1⟩

def exclusiveEnd (lines : List (List Char)) (start stop : Spot) : Except Slip Spot := do
  if start.line < stop.line ∧ stop.column = 1 then
    let line ← sub stop.line 1
    let index ← sub line 1
    let source ← lineOf lines index
    let column ← add source.length 1
    return ⟨line, column⟩
  else
    return stop

def stopOf (lines : List (List Char)) (start : Spot) : Option Position → Except Slip (Option Spot)
  | none => return none
  | some position => do
    let stop ← bring lines.length position
    if start.line ≤ stop.line then
      let stop ← exclusiveEnd lines start stop
      return some stop
    else
      return none

/-- The number of a line of a range over more than one, and the mark of the line. -/
def markOf (lines : List (List Char)) (start stop : Spot) (number : Nat) : Except Slip (Nat × Mark) := do
  let index ← sub number 1
  let source ← lineOf lines index
  if number = start.line then
    let past ← add source.length 1
    return (number, ⟨start.column, max (past - start.column) 1⟩)
  else if number = stop.line then
    return (number, ⟨1, max (stop.column - 1) 1⟩)
  else
    return (number, ⟨1, max source.length 1⟩)

/-- The marked lines by their numbers. -/
def marksOf (lines : List (List Char)) (start : Spot) : Option Spot → Except Slip (List (Nat × Mark))
  | none => return [(start.line, ⟨start.column, 1⟩)]
  | some stop =>
    if stop.line = start.line then
      return [(start.line, ⟨start.column, max (stop.column - start.column) 1⟩)]
    else
      (List.range' start.line (stop.line + 1 - start.line)).mapM (markOf lines start stop)

/-- The numbers of the first line shown and of the last, and for how many rows room is asked for beforehand. -/
structure Extent where
  first : Nat
  last : Nat
  room : Nat

/-- What is shown. Beforehand, room is asked for one row more than there are lines shown. -/
def extentOf (settings : FrameSettings) (lines : List (List Char)) (start : Spot) (stop : Option Spot) :
    Except Slip Extent := do
  let first := max (start.line - settings.linesAbove.toNat) 1
  let below ← add (lastMarked start stop) settings.linesBelow.toNat
  let last := min below lines.length
  let span ← sub last first
  let room ← add span 2
  return ⟨first, last, room⟩

/-- The row of a line, with the mark that is found for it. -/
def rowOf (lines : List (List Char)) (marks : List (Nat × Mark)) (number : Nat) : Except Slip Row := do
  let index ← sub number 1
  let line ← lineOf lines index
  return ⟨number, line, marks.lookup number⟩

/-! ## Where the steps are possible -/

theorem add_eq {left right : Nat} (fits : left + right < UInt64.size) : add left right = .ok (left + right) :=
  if_pos fits

theorem sub_eq {left right : Nat} (le : right ≤ left) : sub left right = .ok (left - right) := if_pos le

theorem lineOf_eq {lines : List (List Char)} {number : Nat} (positive : 0 < number) (le : number ≤ lines.length) :
    lineOf lines (number - 1) = .ok (lineAt lines number) := by
  rw [lineOf, getElem?_lineAt positive le]

theorem lookup_graph_eq {α : Type} (value : Nat → α) (numbers : List Nat) (number : Nat) :
    (numbers.map fun n => (n, value n)).lookup number = if number ∈ numbers then some (value number) else none := by
  by_cases member : number ∈ numbers
  · rw [if_pos member, List.lookup_graph value member]
  · rw [if_neg member, List.lookup_eq_none_iff]
    intro pair among
    obtain ⟨n, its, rfl⟩ := List.mem_map.mp among
    exact bne_iff_ne.mpr fun same => member (same ▸ its)

/-- The lines of a text that a word can measure. -/
structure Measured (lines : List (List Char)) : Prop where
  nonempty : 0 < lines.length
  count : lines.length + 1 < UInt64.size
  length : ∀ line ∈ lines, line.length + 1 < UInt64.size

variable {lines : List (List Char)} (measured : Measured lines)

include measured

theorem length_lineAt (number : Nat) : (lineAt lines number).length + 1 < UInt64.size := by
  rw [lineAt, List.getD_eq_getElem?_getD]
  cases found : lines[number - 1]? with
  | none => decide
  | some line => exact measured.length line (List.mem_of_getElem? found)

theorem bring_eq (position : Position) : bring lines.length position = .ok (Frame.bring lines.length position) := by
  have bounds : 1 ≤ lines.length := measured.nonempty
  rw [bring, clamp, if_pos bounds]
  rfl

theorem exclusiveEnd_eq {start stop : Spot} (positive : 0 < start.line) (inText : stop.line ≤ lines.length) :
    exclusiveEnd lines start stop = .ok (Frame.exclusiveEnd lines start stop) := by
  unfold exclusiveEnd Frame.exclusiveEnd
  split
  · next moved =>
    have line : lineOf lines (stop.line - 1 - 1) = .ok (lineAt lines (stop.line - 1)) :=
      lineOf_eq (by omega) (by omega)
    rw [sub_eq (by omega), ok_bind, sub_eq (by omega), ok_bind, line, ok_bind,
      add_eq (length_lineAt measured _), ok_bind]
    rfl
  · rfl

theorem stopOf_eq (location : Location) :
    stopOf lines (startOf lines location) location.stop = .ok (Frame.stopOf lines location) := by
  have positive : 0 < (startOf lines location).line := bring_line_pos _ measured.nonempty _
  cases range : location.stop with
  | none =>
    simp only [stopOf, Frame.stopOf, range, Option.map_none, Option.filter_none, pure_eq]
  | some position =>
    have ends := exclusiveEnd_eq measured positive (bring_line_le lines.length position)
    simp only [stopOf, Frame.stopOf, range, Option.map_some, Option.filter_some, decide_eq_true_eq,
      bring_eq measured, ok_bind, ends, pure_eq]
    split
    · rfl
    · rfl

variable {location : Location}

theorem markOf_eq {stop : Spot} (found : Frame.stopOf lines location = some stop)
    (several : stop.line ≠ (startOf lines location).line) {number : Nat}
    (first : firstMarked lines location ≤ number) (final : number ≤ stop.line) :
    markOf lines (startOf lines location) stop number = .ok (number, markAt lines location number) := by
  obtain ⟨positive, _, _⟩ := marked_bounds measured.nonempty location
  have inText := (stopOf_line found).2
  have line : lineOf lines (number - 1) = .ok (lineAt lines number) := lineOf_eq (by omega) (by omega)
  unfold markOf markAt
  rw [sub_eq (by omega), ok_bind, line, ok_bind, add_eq (length_lineAt measured number), ok_bind, found]
  simp only [caretStart, caretStop, pure_eq]
  by_cases starts : number = (startOf lines location).line
  · have goesOn : number ≠ stop.line := fun ends => several (ends.symm.trans starts)
    simp only [starts, if_true, if_neg (starts ▸ goesOn)]
  · by_cases ends : number = stop.line
    · simp only [if_neg starts, if_pos ends]
    · simp only [if_neg starts, if_neg ends, Nat.add_sub_cancel]

/-- A range over more than one line has the marks from its first line to its last. -/
theorem marksOf_several {stop : Spot} (found : Frame.stopOf lines location = some stop)
    (several : stop.line ≠ (startOf lines location).line) :
    marksOf lines (startOf lines location) (some stop) =
      .ok ((List.range' (firstMarked lines location) (stop.line + 1 - firstMarked lines location)).map
        fun number => (number, markAt lines location number)) := by
  refine (if_neg several).trans (mapM_eq_ok_map fun number member => ?_)
  obtain ⟨first, final⟩ := List.mem_range'_1.mp member
  exact markOf_eq measured found several first (by omega)

/-- The marks that are found are those of the rows. -/
theorem marksOf_eq (location : Location) :
    ∃ marks, marksOf lines (startOf lines location) (Frame.stopOf lines location) = .ok marks ∧
      ∀ number, List.lookup number marks = (Frame.rowOf lines location number).mark := by
  have single (mark : Mark) (number : Nat) : [((startOf lines location).line, mark)].lookup number =
      if number = (startOf lines location).line then some mark else none := by
    have found := lookup_graph_eq (fun _ => mark) [(startOf lines location).line] number
    simpa only [List.map_cons, List.map_nil, List.mem_singleton] using found
  cases found : Frame.stopOf lines location with
  | none =>
    refine ⟨_, rfl, fun number => ?_⟩
    rw [single, Frame.rowOf, found]
    rfl
  | some stop =>
    by_cases same : stop.line = (startOf lines location).line
    · refine ⟨_, if_pos same, fun number => ?_⟩
      rw [single, Frame.rowOf, found]
      exact (if_pos same).symm
    · refine ⟨_, marksOf_several measured found same, fun number => ?_⟩
      have after := (stopOf_line found).1
      have final : finalMarked lines location = stop.line := by
        rw [finalMarked, found]
        rfl
      have within : number ∈ List.range' (firstMarked lines location) (stop.line + 1 - firstMarked lines location) ↔
          firstMarked lines location ≤ number ∧ number ≤ stop.line := by
        rw [List.mem_range'_1]
        omega
      rw [lookup_graph_eq, mark_rowOf, final]
      exact if_congr within rfl rfl

/-- Where a word can count the last marked line and the lines below together, it can count all that is shown. -/
theorem extentOf_eq {settings : FrameSettings}
    (counted : finalMarked lines location + settings.linesBelow.toNat < UInt64.size) :
    extentOf settings lines (startOf lines location) (Frame.stopOf lines location) =
      .ok ⟨firstNumber settings lines location, lastNumber settings lines location,
        lastNumber settings lines location - firstNumber settings lines location + 2⟩ := by
  obtain ⟨_, ordered, _⟩ := marked_bounds measured.nonempty location
  have sum : add (lastMarked (startOf lines location) (Frame.stopOf lines location)) settings.linesBelow.toNat =
      .ok (finalMarked lines location + settings.linesBelow.toNat) := add_eq counted
  have positive := firstNumber_pos settings lines location
  have inText := lastNumber_le settings lines location
  have first := mem_shown.mp (marked_shown_of_counted measured.nonempty counted (Nat.le_refl _) ordered)
  have room := measured.count
  -- No line before the first shown, and no more lines than the text has: the other steps need nothing else.
  rw [extentOf, sum, ok_bind, ← lastNumber_eq_of_counted counted]
  change (do
    let span ← sub (lastNumber settings lines location) (firstNumber settings lines location)
    let room ← add span 2
    return (⟨firstNumber settings lines location, lastNumber settings lines location, room⟩ : Extent)) = _
  rw [sub_eq (by omega), ok_bind, add_eq (by omega), ok_bind, pure_eq]

omit measured in
/-- Where it cannot, that sum is the step at which the reckoning ends. -/
theorem extentOf_eq_error {settings : FrameSettings}
    (exceeds : UInt64.size ≤ finalMarked lines location + settings.linesBelow.toNat) :
    extentOf settings lines (startOf lines location) (Frame.stopOf lines location) =
      .error (.overflow (finalMarked lines location) settings.linesBelow.toNat) := by
  have sum : add (lastMarked (startOf lines location) (Frame.stopOf lines location)) settings.linesBelow.toNat =
      .error (.overflow (finalMarked lines location) settings.linesBelow.toNat) := if_neg (Nat.not_lt_of_le exceeds)
  rw [extentOf, sum, error_bind]

omit measured in
theorem rowOf_eq {marks : List (Nat × Mark)}
    (lookups : ∀ number, marks.lookup number = (Frame.rowOf lines location number).mark) {number : Nat}
    (positive : 0 < number) (inText : number ≤ lines.length) :
    rowOf lines marks number = .ok (Frame.rowOf lines location number) := by
  rw [rowOf, sub_eq positive, ok_bind, lineOf_eq positive inText, ok_bind, lookups]
  rfl

end Checked

end Polyglot.Frame
