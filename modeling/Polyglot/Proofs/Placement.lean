import Polyglot.Proofs.Blocks
import Polyglot.Proofs.Carets
import Polyglot.Proofs.Offsets

/-!
# Where a text is refused

The position after the beginning of a text lies in the text, and says where that beginning ends
(`designates_after`). The languages that are read by offsets therefore either read a text or point into the text
that they refuse, and the frame marks the line of that place alone (`placed_of_alone`).
-/

namespace Polyglot

/-! ## Positions -/

namespace Text

open Language.Block (joined ended joined_cons joined_concat joined_pieces pieces_ended_append)

/-- A text is its complete lines and what stands after them. -/
theorem exists_lines (text : List Char) :
    ∃ lines last, text = joined lines ++ last ∧ (∀ line ∈ lines, '\n' ∉ line) ∧ '\n' ∉ last := by
  obtain ⟨lines, last, cut⟩ := List.eq_nil_or_concat' (pieces text) |>.resolve_left (pieces_ne_nil text)
  have free : ∀ line ∈ lines ++ [last], '\n' ∉ line := fun line member => newline_not_mem_piece (cut.symm ▸ member)
  have whole := joined_pieces text
  rw [cut, joined_concat, ended, ended, ← List.append_assoc] at whole
  exact ⟨lines, last, (List.append_cancel_right whole).symm,
    fun line member => free line (List.mem_append_left _ member), free last List.mem_concat_self⟩

theorem count_newline_joined {lines : List (List Char)} (free : ∀ line ∈ lines, '\n' ∉ line) :
    (joined lines).count '\n' = lines.length := by
  induction lines with
  | nil => rfl
  | cons line lines ih =>
    have here := List.count_eq_zero.mpr (free line List.mem_cons_self)
    rw [joined_cons, ended, List.count_append, List.count_append, here,
      ih fun other member => free other (List.mem_cons_of_mem line member), List.length_cons, Nat.add_comm]
    rfl

theorem takeWhile_reverse_joined (lines : List (List Char)) :
    (joined lines).reverse.takeWhile (· ≠ '\n') = [] := by
  rcases List.eq_nil_or_concat' lines with rfl | ⟨before, last, rfl⟩
  · rfl
  · rw [joined_concat, ended, ← List.append_assoc, List.reverse_concat]
    rfl

theorem pieces_joined_append {lines : List (List Char)} (free : ∀ line ∈ lines, '\n' ∉ line) (rest : List Char) :
    pieces (joined lines ++ rest) = lines ++ pieces rest := by
  induction lines with
  | nil => rfl
  | cons line lines ih =>
    rw [joined_cons, List.append_assoc, pieces_ended_append (free line List.mem_cons_self),
      ih fun other member => free other (List.mem_cons_of_mem line member)]
    rfl

theorem pieces_append_of_free {front : List Char} (free : '\n' ∉ front) {rest piece : List Char}
    {more : List (List Char)} (found : pieces rest = piece :: more) :
    pieces (front ++ rest) = (front ++ piece) :: more := by
  induction front with
  | nil => exact found
  | cons c front ih =>
    rw [List.mem_cons, not_or] at free
    exact pieces_cons_of_ne (Ne.symm free.1) (ih free.2)

theorem length_pieces (text : List Char) : (pieces text).length = text.count '\n' + 1 := by
  obtain ⟨lines, last, rfl, free, freeLast⟩ := exists_lines text
  have single : pieces last = [last] := by
    have own := pieces_append_of_free freeLast (rfl : pieces [] = [[]])
    rwa [List.append_nil] at own
  rw [pieces_joined_append free, single, List.count_append, count_newline_joined free,
    List.count_eq_zero.mpr freeLast, List.length_append]
  rfl

end Text

/-! ## The frame of a place -/

namespace Frame

/-- What a frame has for the line of a place: its row, which begins with `>`, and a row with one caret, at the column
of the place. -/
def Pointed (lines : List (List Char)) (width : Nat) (spot : Spot) (rows : List (List Char)) : Prop :=
  ∃ row carets, rows = [row, carets] ∧ ['>', ' '] ++ gutter width spot.line ++ [' ', '|'] <+: row ∧
    (∀ column, 0 < column → row[width + 4 + column]? = (lineAt lines spot.line)[column - 1]?) ∧
    ∀ index, carets[index]? = some '^' ↔ index = width + 4 + spot.column

/-- What a frame has for any other line: its row alone. -/
def Plain (lines : List (List Char)) (width number : Nat) (rows : List (List Char)) : Prop :=
  ∃ row, rows = [row] ∧ [' ', ' '] ++ gutter width number ++ [' ', '|'] <+: row ∧
    ∀ column, 0 < column → row[width + 4 + column]? = (lineAt lines number)[column - 1]?

/-- A frame that shows consecutive lines, among them that of a place, and marks this one alone. -/
def MarksOnly (lines : List (List Char)) (spot : Spot) (frame : String) : Prop :=
  ∃ first last width, ∃ block : Nat → List (List Char),
    Text.pieces frame.toList = (List.range' first (last + 1 - first)).flatMap block ∧
    first ≤ spot.line ∧ spot.line ≤ last ∧ Pointed lines width spot (block spot.line) ∧
    ∀ number, first ≤ number → number ≤ last → number ≠ spot.line → Plain lines width number (block number)

section
variable {settings : FrameSettings} {lines : List (List Char)} {position : Position}

/-- A point marks its own line, at its column. -/
theorem marks_point (brought : bring lines.length position = position.spot) :
    firstMarked lines (.point position) = position.spot.line ∧
      finalMarked lines (.point position) = position.spot.line ∧
      markAt lines (.point position) position.spot.line = ⟨position.spot.column, 1⟩ := by
  have start : startOf lines (.point position) = position.spot := brought
  have stop : stopOf lines (.point position) = none := stopOf_eq_none rfl
  have single : max (position.spot.column + 1 - position.spot.column) 1 = 1 := by omega
  simp only [firstMarked, finalMarked, lastMarked, markAt, caretStart, caretStop, start, stop, if_true, single,
    and_self]

theorem marksOnly_of_point (settings : FrameSettings) (text : String)
    (brought : bring (Text.sourceLines text.toList).length position = position.spot)
    (counted : position.spot.line + settings.linesBelow.toNat < UInt64.size) :
    MarksOnly (Text.sourceLines text.toList) position.spot (render settings text (.point position)) := by
  obtain ⟨first, final, mark⟩ := marks_point brought
  have shows : position.spot.line ∈ shown settings (Text.sourceLines text.toList) (.point position) :=
    marked_shown_of_counted (Text.sourceLines_length_pos _) (final.symm ▸ counted) (Nat.le_of_eq first)
      (Nat.le_of_eq final.symm)
  obtain ⟨above, below⟩ := mem_shown.mp shows
  refine ⟨_, _, gutterWidth settings (Text.sourceLines text.toList) (.point position), _, pieces_render_of_mem shows,
    above, below, ?_, ?_⟩
  · obtain ⟨row, carets, written, begins, shown, under⟩ :=
      exists_rows_of_marked shows ⟨Nat.le_of_eq first, Nat.le_of_eq final.symm⟩
    rw [mark] at under
    refine ⟨row, carets, written, begins, shown, fun index => ?_⟩
    rw [under]
    constructor
    · rintro ⟨column, rfl, after, before⟩
      simp only at after before
      omega
    · rintro rfl
      exact ⟨_, rfl, Nat.le_refl _, Nat.lt_succ_self _⟩
  · intro number above below other
    refine exists_row_of_plain (mem_shown.mpr ⟨above, below⟩) ?_
    rw [first, final]
    omega

end

end Frame

namespace Language

open Json.Reader (byteCount)
open Block (joined)

/-- A text that memory can hold: half the words are enough to count its bytes. -/
def Held (text : List Char) : Prop := byteCount text < UInt64.size / 2

instance (text : List Char) : Decidable (Held text) := inferInstanceAs (Decidable (_ < _))

theorem Held.of_le {text part : List Char} (held : Held text) (le : byteCount part ≤ byteCount text) : Held part :=
  Nat.lt_of_le_of_lt le held

/-- Words can count the characters of such a text, and one more. -/
theorem Held.succ_lt {text : List Char} (held : Held text) {count : Nat} (le : count ≤ text.length) :
    count + 1 < UInt64.size := by
  have bytes := Text.length_le_byteCount text
  simp only [Held, UInt64.size] at held ⊢
  omega

/-- What stands before a place in a text: the lines before its line, and the characters of its line before its
column. -/
def upTo (text : List Char) (spot : Frame.Spot) : List Char :=
  joined ((Text.pieces text).take (spot.line - 1)) ++
    (Frame.lineAt (Text.pieces text) spot.line).take (spot.column - 1)

/-- A position that is in a text, in one of its lines or right after it, and that is where an offset is. -/
structure Designates (text : List Char) (position : Position) (offset : Nat) : Prop where
  line_pos : 1 ≤ position.spot.line
  line_le : position.spot.line ≤ text.count '\n' + 1
  column_pos : 1 ≤ position.spot.column
  column_le : position.spot.column ≤ (Frame.lineAt (Text.pieces text) position.spot.line).length + 1
  begins : upTo text position.spot <+: text
  counts : byteCount (upTo text position.spot) = offset

theorem spot_after {lines : List (List Char)} {last : List Char} (free : ∀ line ∈ lines, '\n' ∉ line)
    (freeLast : '\n' ∉ last) (held : Held (joined lines ++ last)) :
    (Position.after (joined lines ++ last)).spot = ⟨lines.length + 1, last.length + 1⟩ := by
  have lineCount : (joined lines ++ last).count '\n' = lines.length := by
    rw [List.count_append, Text.count_newline_joined free, List.count_eq_zero.mpr freeLast, Nat.add_zero]
  have columnCount : ((joined lines ++ last).reverse.takeWhile (· ≠ '\n')).length = last.length := by
    have passes : ∀ c ∈ last.reverse, decide (c ≠ '\n') = true := fun c member =>
      decide_eq_true fun newline => freeLast (newline ▸ List.mem_reverse.mp member)
    rw [List.reverse_append, List.takeWhile_append_of_pos passes, Text.takeWhile_reverse_joined, List.append_nil,
      List.length_reverse]
  have lineFits : lines.length + 1 < UInt64.size := held.succ_lt (lineCount ▸ List.count_le_length)
  have columnFits : last.length + 1 < UInt64.size := by
    refine held.succ_lt ?_
    rw [List.length_append]
    exact Nat.le_add_left _ _
  simp only [Position.spot, Position.after, lineCount, columnCount, UInt64.toNat_ofNat_of_lt' lineFits,
    UInt64.toNat_ofNat_of_lt' columnFits]

/-- The position after the beginning of a text is in the text, where this beginning ends. -/
theorem designates_after {text before after : List Char} (whole : text = before ++ after)
    (held : Held text) : Designates text (.after before) (byteCount before) := by
  have heldBefore : Held before := by
    refine held.of_le ?_
    rw [whole, Text.byteCount_append]
    exact Nat.le_add_right _ _
  obtain ⟨lines, last, rfl, free, freeLast⟩ := Text.exists_lines before
  have spot := spot_after free freeLast heldBefore
  obtain ⟨piece, more, next⟩ := List.exists_cons_of_ne_nil (Text.pieces_ne_nil after)
  have pieces : Text.pieces text = lines ++ (last ++ piece) :: more := by
    rw [whole, List.append_assoc, Text.pieces_joined_append free, Text.pieces_append_of_free freeLast next]
  have line : Frame.lineAt (Text.pieces text) (lines.length + 1) = last ++ piece := by
    rw [pieces]
    exact Frame.lineAt_of_getElem? (by simp)
  have beginning : upTo text (Position.after (joined lines ++ last)).spot = joined lines ++ last := by
    rw [spot, upTo, line, pieces]
    simp
  constructor
  case line_pos => exact spot ▸ Nat.le_add_left 1 _
  case column_pos => exact spot ▸ Nat.le_add_left 1 _
  case begins => exact ⟨after, by rw [beginning, whole]⟩
  case counts => rw [beginning]
  case line_le =>
    rw [spot, ← Text.length_pieces, pieces, List.length_append, List.length_cons]
    simp only
    omega
  case column_le =>
    rw [spot]
    simp only [line, List.length_append]
    omega

/-! ## Refusals -/

/-- The languages that are read by offsets. -/
inductive Sliced
  | declaration
  | expression
  | template

namespace Sliced

def language : Sliced → Language
  | .declaration => .declaration
  | .expression => .expression
  | .template => .template

def read : Sliced → List Char → Except Halt Document
  | .declaration, text => (Offsets.declaration text).map .declaration
  | .expression, text => (Offsets.expression text).map .expression
  | .template, text => (Offsets.template text).map .template

end Sliced

/-- The text that a parser is given, and how the parse that gives it frames it: the text that is parsed, or the
expression of a template's binding, which has a frame as by default. -/
inductive Given (language : Language) (raw : List Char) (settings : FrameSettings) : List Char → FrameSettings → Prop
  | own : Given language raw settings raw settings
  | embedded {before inner after : List Char} (template : language = .template)
      (bound : Template.parse raw = .ok (.bound before inner after)) : Given language raw settings inner {}

/-- What a refusal is reported as, with a frame of its text. -/
def Refusal.fault (refusal : Refusal) (settings : FrameSettings) : Fault :=
  ((Fault.syntactic refusal.message).located (.point refusal.position)).attach
    (Frame.render settings (.ofList refusal.text) (.point refusal.position))

/-- How a parse answers what is read by offsets: with the tree of the document, or with a refusal of the text that a
parser was given. Its position is that of its offset in this text, and the frame marks its line alone, by default and
wherever words can count the lines that are to be shown. There is no answer to offsets that name no slice. -/
inductive Placed (language : Language) (settings : FrameSettings) (raw : String) :
    Except Halt Document → Except Fault Parsed → Prop
  | document (document : Document) : Placed language settings raw (.ok document) (.ok ⟨raw, document.tree⟩)
  | refusal {refusal : Refusal} {frame : FrameSettings} (given : Given language raw.toList settings refusal.text frame)
      (designates : Designates refusal.text refusal.position refusal.offset)
      (marks : frame = {} ∨ refusal.position.spot.line + frame.linesBelow.toNat < UInt64.size →
        Frame.MarksOnly (Text.sourceLines refusal.text) refusal.position.spot
          (Frame.render frame (.ofList refusal.text) (.point refusal.position))) :
      Placed language settings raw (.error (.refusal refusal)) (.error (refusal.fault frame))

theorem designates_refusal {text : List Char} (held : Held text) (problem : Problem) :
    Designates text (problem.refusal text).position (problem.refusal text).offset :=
  designates_after (List.take_append_drop problem.offset text).symm held

/-- By default, words can count the lines that are to be shown below a place in a text. -/
theorem counted_of_held {text : List Char} {position : Position} {offset : Nat} (held : Held text)
    (designates : Designates text position offset) :
    position.spot.line + ({} : FrameSettings).linesBelow.toNat < UInt64.size := by
  have line_le := designates.line_le
  have count_le : text.count '\n' ≤ text.length := List.count_le_length
  have bytes := Text.length_le_byteCount text
  have below : ({} : FrameSettings).linesBelow.toNat = 3 := rfl
  rw [below]
  simp only [Held, UInt64.size] at held ⊢
  omega

theorem marksOnly_of_designates {text : List Char} {position : Position} {offset : Nat}
    (designates : Designates text position offset) {settings : FrameSettings}
    (counted : position.spot.line + settings.linesBelow.toNat < UInt64.size) :
    Frame.MarksOnly (Text.sourceLines text) position.spot
      (Frame.render settings (.ofList text) (.point position)) := by
  have line_le := designates.line_le
  rw [← Text.length_pieces] at line_le
  have brought : Frame.bring (Text.sourceLines (String.ofList text).toList).length position = position.spot := by
    rw [String.toList_ofList, Text.sourceLines, List.length_map]
    exact Frame.bring_eq_of_line designates.line_pos line_le designates.column_pos
  have marks := Frame.marksOnly_of_point settings (.ofList text) brought counted
  rwa [String.toList_ofList] at marks

section
variable {language : Language} {settings frame : FrameSettings} {raw : String} {text : List Char}

theorem placed_of_problem (given : Given language raw.toList settings text frame) (held : Held text)
    (problem : Problem) :
    Placed language settings raw (.error (.refusal (problem.refusal text)))
      (.error ((problem.fault text).framed frame (.ofList text))) := by
  have designates := designates_refusal held problem
  refine .refusal given designates fun allowed => marksOnly_of_designates designates ?_
  rcases allowed with rfl | counted
  · exact counted_of_held held designates
  · exact counted

theorem placed_of_own (held : Held raw.toList) (problem : Problem) :
    Placed language settings raw (.error (.refusal (problem.refusal raw.toList)))
      (.error ((problem.fault raw.toList).framed settings raw)) := by
  have given : Given language raw.toList settings raw.toList settings := .own
  have placed := placed_of_problem given held problem
  rwa [String.ofList_toList] at placed

/-- The parts of a template are no longer than the template. -/
theorem byteCount_inner_le {before inner after : List Char}
    (bound : Template.parse text = .ok (.bound before inner after)) : byteCount inner ≤ byteCount text := by
  unfold Template.parse at bound
  cases opens : Text.splitAtFirst Template.binding text with
  | none => simp [opens] at bound
  | some parts =>
    obtain ⟨front, rest⟩ := parts
    cases closes : Text.splitAtFirst ['"'] rest with
    | none => simp [opens, closes] at bound
    | some parts =>
      simp only [opens, closes] at bound
      cases bound
      rw [Text.eq_append_of_splitAtFirst opens, Text.eq_append_of_splitAtFirst closes]
      simp only [Text.byteCount_append]
      omega

/-- How the answer of a parse comes of what is read, with a frame on a fault. -/
def answerOf (settings : FrameSettings) (raw : String) (outcome : Except Fault Document) : Except Fault Parsed :=
  (outcome.mapError fun fault => fault.framed settings raw).map fun document => ⟨raw, document.tree⟩

theorem placed_of_outcome {α : Type} (held : Held raw.toList) (outcome : Except Problem α)
    (document : α → Document) :
    Placed language settings raw ((refused raw.toList outcome).map document)
      (answerOf settings raw ((located raw.toList outcome).map document)) := by
  cases outcome with
  | ok value => exact .document (document value)
  | error problem => exact placed_of_own held problem

theorem placed_of_template (held : Held raw.toList) :
    Placed .template settings raw ((Offsets.template raw.toList).map .template)
      (answerOf settings raw ((Styled.read raw.toList).map .template)) := by
  rw [Offsets.template_eq, Styled.read]
  cases cut : Template.parse raw.toList with
  | error problem => exact placed_of_own held problem
  | ok template =>
    cases template with
    | plain text => exact .document (.template (.plain text))
    | bound before inner after =>
      show Placed .template settings raw (((refused inner (ObjectLiteral.parse inner)).map _).map _)
        (answerOf settings raw (((embedded inner (located inner (ObjectLiteral.parse inner))).map _).map _))
      cases ObjectLiteral.parse inner with
      | ok literal => exact .document (.template (.bound before literal after))
      | error problem =>
        have held := held.of_le (byteCount_inner_le cut)
        have given : Given .template raw.toList settings inner {} := .embedded rfl cut
        have placed := placed_of_problem given held problem
        have once := Fault.framed_framed (problem.fault inner) {} settings (.ofList inner) raw
        rw [← once] at placed
        exact placed

end

open Script (kit)

/-- Where a declaration, an expression or a template is parsed and nothing but the built-in languages is registered,
no offsets ever name anything but a slice: the text is read, or refused at a position in the text that the refusing
parser was given. -/
theorem placed_of_alone (sliced : Sliced) {options : Options kit} (alone : Alone sliced.language options)
    (pipeline : Pipeline) {raw : String} (held : Held raw.toList) (world : World Script.Journal) :
    Placed sliced.language pipeline.frame raw (sliced.read raw.toList)
      (Outcome.answer (pipeline.parse Script.capabilities raw ⟨options, world⟩)) := by
  have answers := answer_parse_of_alone alone pipeline raw.toList world
  rw [String.ofList_toList] at answers
  rw [answers]
  cases sliced with
  | declaration =>
    rw [Sliced.read, Offsets.declaration_eq]
    exact placed_of_outcome held _ _
  | expression =>
    rw [Sliced.read, Offsets.expression_eq]
    exact placed_of_outcome held _ _
  | template => exact placed_of_template held

theorem Given.settings_eq {language : Language} {raw text : List Char} {settings : FrameSettings}
    (given : Given language raw {} text settings) : settings = {} := by
  cases given <;> rfl

/-- Where frames are as by default, a refusal decides the answer. -/
theorem Placed.answer_eq {language : Language} {raw : String} {refusal : Refusal} {outcome : Except Fault Parsed}
    (placed : Placed language {} raw (.error (.refusal refusal)) outcome) :
    outcome = .error (refusal.fault {}) ∧ Designates refusal.text refusal.position refusal.offset := by
  cases placed with
  | refusal given designates marks => exact ⟨by rw [given.settings_eq], designates⟩

/-- A template whose binding holds no literal, after blanks of several bytes in two lines. -/
def unbraced : String := "<p\n:style=\" \u00a0\n  \u00e9\">"

def unbracedRefusal : Refusal := ⟨" \u00a0\n  \u00e9".toList, 6, "Expected an object literal.", ⟨2, 3⟩⟩

theorem placed_of_unbraced :
    Sliced.template.read unbraced.toList = .error (.refusal unbracedRefusal) ∧
    Held unbraced.toList ∧
    Outcome.answer (Pipeline.parse {} Script.capabilities unbraced ⟨fresh .template, { state := {} }⟩) =
      .error {
        kind := .syntactic
        message := "Expected an object literal.\n  1 |  \u00a0\n> 2 |   \u00e9\n    |   ^"
        location := some (.point ⟨2, 3⟩)
        frame := some "  1 |  \u00a0\n> 2 |   \u00e9\n    |   ^" } ∧
    Designates unbracedRefusal.text ⟨2, 3⟩ 6 := by
  have held : Held unbraced.toList := by decide
  have reads : Sliced.template.read unbraced.toList = .error (.refusal unbracedRefusal) := rfl
  have placed := placed_of_alone .template (alone_fresh .template) {} held { state := {} }
  rw [reads] at placed
  obtain ⟨answer, designates⟩ := placed.answer_eq
  exact ⟨reads, held, answer.trans (congrArg Except.error (by decide)), designates⟩

end Language

end Polyglot
