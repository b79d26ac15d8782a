import Mathlib.Data.List.Chain
import Polyglot.Language.Prose
import Polyglot.Proofs.LineEnds
import Polyglot.Proofs.Trimming

/-!
# Blocks and their lines

The blocks of a text have a text of their own, in which each block of code has both its fences. Blocks are read of some
text just when they are laid out: no two blocks of prose follow each other, no line of prose begins with a fence, and no
line of code is one (`layout_ofText`). Without `"\r\n"` in it, the text of such blocks is read as the very same blocks
(`ofText_flatMap_chars`).
-/

namespace Polyglot

namespace Text

theorem newline_not_mem_completeLines {parts : List (List Char)} {line : List Char}
    (free : ∀ part ∈ parts, '\n' ∉ part) (member : line ∈ completeLines parts) : '\n' ∉ line := by
  induction parts with
  | nil => cases member
  | cons first more ih =>
    have here := free first List.mem_cons_self
    have later : ∀ part ∈ more, '\n' ∉ part := fun part among => free part (List.mem_cons_of_mem first among)
    cases more with
    | nil =>
      rw [completeLines] at member
      split at member
      · cases member
      · rwa [List.mem_singleton.mp member]
    | cons next more =>
      rcases List.mem_cons.mp member with rfl | member
      · unfold dropReturn
        split
        · exact fun newline => here ((List.dropLast_sublist first).subset newline)
        · exact here
      · exact ih later member

theorem newline_not_mem_line {text line : List Char} (member : line ∈ lines text) : '\n' ∉ line :=
  newline_not_mem_completeLines (fun _ among => newline_not_mem_piece among) member

theorem completeLines_concat_nil (parts : List (List Char)) : completeLines (parts ++ [[]]) = parts.map dropReturn := by
  induction parts with
  | nil => rfl
  | cons first more ih =>
    have nonempty : more ++ [[]] ≠ [] := by simp
    rw [List.cons_append, completeLines, ih, List.map_cons]
    exact nonempty

theorem exists_piece_ending_in_return {text : List Char} (returns : ['\r', '\n'] <:+: text) :
    ∃ piece ∈ pieces text, piece.getLast? = some '\r' := by
  induction text with
  | nil => simp at returns
  | cons c rest ih =>
    rcases List.infix_cons_iff.mp returns with ⟨back, here⟩ | later
    · cases here
      have first : pieces ('\r' :: '\n' :: back) = ['\r'] :: pieces back :=
        pieces_cons_of_ne (by decide) (pieces_newline_cons back)
      exact ⟨['\r'], first ▸ List.mem_cons_self, rfl⟩
    · obtain ⟨piece, among, ends⟩ := ih later
      by_cases newline : c = '\n'
      · subst newline
        rw [pieces_newline_cons]
        exact ⟨piece, List.mem_cons_of_mem [] among, ends⟩
      · obtain ⟨first, more, found⟩ := List.exists_cons_of_ne_nil (pieces_ne_nil rest)
        rw [found] at among
        rw [pieces_cons_of_ne newline found]
        rcases List.mem_cons.mp among with rfl | among
        · exact ⟨c :: piece, List.mem_cons_self, by simp [List.getLast?_cons, ends]⟩
        · exact ⟨piece, List.mem_cons_of_mem _ among, ends⟩

end Text

namespace Language

namespace Block

open Text

/-- The text of some lines, each with its ending. -/
def joined (lines : List (List Char)) : List Char := lines.flatMap ended

theorem joined_cons (line : List Char) (lines : List (List Char)) : joined (line :: lines) = ended line ++ joined lines :=
  List.flatMap_cons

theorem joined_append (lines more : List (List Char)) : joined (lines ++ more) = joined lines ++ joined more :=
  List.flatMap_append

theorem joined_concat (lines : List (List Char)) (line : List Char) :
    joined (lines ++ [line]) = joined lines ++ ended line := by
  simp [joined]

theorem joined_eq_nil_iff {lines : List (List Char)} : joined lines = [] ↔ lines = [] := by
  cases lines <;> simp [joined, ended]

theorem pieces_ended_append {line : List Char} (free : '\n' ∉ line) (rest : List Char) :
    pieces (ended line ++ rest) = line :: pieces rest := by
  induction line with
  | nil => exact pieces_newline_cons rest
  | cons c line ih =>
    rw [List.mem_cons, not_or] at free
    exact pieces_cons_of_ne (Ne.symm free.1) (ih free.2)

theorem pieces_joined {lines : List (List Char)} (free : ∀ line ∈ lines, '\n' ∉ line) :
    pieces (joined lines) = lines ++ [[]] := by
  induction lines with
  | nil => rfl
  | cons line lines ih =>
    rw [joined_cons, pieces_ended_append (free line List.mem_cons_self),
      ih fun other among => free other (List.mem_cons_of_mem line among)]
    rfl

theorem joined_pieces (text : List Char) : joined (pieces text) = ended text := by
  induction text with
  | nil => rfl
  | cons c rest ih =>
    by_cases newline : c = '\n'
    · rw [newline, pieces_newline_cons, joined_cons, ih]
      rfl
    · obtain ⟨piece, more, found⟩ := List.exists_cons_of_ne_nil (pieces_ne_nil rest)
      rw [found, joined_cons] at ih
      rw [pieces_cons_of_ne newline found, joined_cons]
      exact congrArg (c :: ·) ih

theorem lines_joined {lines : List (List Char)} (free : ∀ line ∈ lines, '\n' ∉ line) :
    Text.lines (joined lines) = lines.map dropReturn := by
  rw [Text.lines, pieces_joined free, completeLines_concat_nil]

/-- Without `"\r\n"`, the lines of a text are what it was made of. -/
theorem lines_joined_of_free {lines : List (List Char)} (free : ∀ line ∈ lines, '\n' ∉ line)
    (bare : ¬ ['\r', '\n'] <:+: joined lines) : Text.lines (joined lines) = lines := by
  rw [lines_joined free]
  refine (List.map_congr_left fun line member => ?_).trans (List.map_id lines)
  have among : line ∈ (pieces (joined lines)).dropLast := by
    rw [pieces_joined free, List.dropLast_concat]
    exact member
  exact dropReturn_of_getLast?_ne (getLast?_ne_return_of_free bare among)

/-! ## Reading lines -/

theorem proseFrom_append {lines : List (List Char)} (plain : ∀ line ∈ lines, ¬ fence <+: line) (text : List Char)
    (rest : List (List Char)) : proseFrom text (lines ++ rest) = proseFrom (text ++ joined lines) rest := by
  induction lines generalizing text with
  | nil => simp [joined]
  | cons line lines ih =>
    have here : dropWord fence line = none := dropWord_eq_none_iff.mpr (plain line List.mem_cons_self)
    rw [List.cons_append, proseFrom, here, joined_cons, ← List.append_assoc]
    exact ih (fun other among => plain other (List.mem_cons_of_mem line among)) _

theorem codeFrom_append {lines : List (List Char)} (inside : fence ∉ lines) (language text : List Char)
    (rest : List (List Char)) :
    codeFrom language text (lines ++ rest) = codeFrom language (text ++ joined lines) rest := by
  induction lines generalizing text with
  | nil => simp [joined]
  | cons line lines ih =>
    rw [List.mem_cons, not_or] at inside
    rw [List.cons_append, codeFrom, if_neg (Ne.symm inside.1), joined_cons, ← List.append_assoc]
    exact ih inside.2 _

theorem proseFrom_opening (text language : List Char) (rest : List (List Char)) :
    proseFrom text ((fence ++ language) :: rest) = ofProse text ++ codeFrom language [] rest := by
  have opens : dropWord fence (fence ++ language) = some language := dropWord_eq_some_iff.mpr rfl
  rw [proseFrom, opens]

theorem codeFrom_closing (language text : List Char) (rest : List (List Char)) :
    codeFrom language text (fence :: rest) = .code language text :: proseFrom [] rest := if_pos rfl

theorem ofProse_of_ne_nil {text : List Char} (nonempty : text ≠ []) : ofProse text = [.prose text] := if_neg nonempty

/-! ## Layout -/

def IsProse : Block → Prop
  | .prose _ => True
  | .code _ _ => False

/-- A block whose lines are read as that block. -/
inductive Laid : Block → Prop
  | prose {lines : List (List Char)} (nonempty : lines ≠ [])
      (plain : ∀ line ∈ lines, '\n' ∉ line ∧ ¬ fence <+: line) : Laid (.prose (joined lines))
  | code {language : List Char} {lines : List (List Char)} (named : '\n' ∉ language)
      (inside : ∀ line ∈ lines, '\n' ∉ line ∧ line ≠ fence) : Laid (.code language (joined lines))

/-- Blocks that are laid out, without prose after prose. -/
structure Layout (blocks : List Block) : Prop where
  laid : ∀ block ∈ blocks, block.Laid
  apart : blocks.IsChain fun before after => before.IsProse → ¬ after.IsProse

theorem layout_nil : Layout [] := ⟨List.forall_mem_nil _, List.isChain_nil⟩

theorem Layout.code_cons {language text : List Char} {blocks : List Block} (laid : (code language text).Laid)
    (layout : Layout blocks) : Layout (.code language text :: blocks) := by
  refine ⟨fun block among => ?_, layout.apart.cons fun _ _ prose => prose.elim⟩
  rcases List.mem_cons.mp among with rfl | among
  · exact laid
  · exact layout.laid block among

theorem Layout.ofProse_append {lines : List (List Char)} {blocks : List Block}
    (plain : ∀ line ∈ lines, '\n' ∉ line ∧ ¬ fence <+: line) (layout : Layout blocks)
    (coded : ∀ block ∈ blocks.head?, ¬ block.IsProse) : Layout (ofProse (joined lines) ++ blocks) := by
  by_cases empty : lines = []
  · subst empty
    exact layout
  · rw [ofProse_of_ne_nil (mt joined_eq_nil_iff.mp empty)]
    refine ⟨fun block among => ?_, layout.apart.cons fun block among _ => coded block among⟩
    rcases List.mem_cons.mp among with rfl | among
    · exact .prose empty plain
    · exact layout.laid block among

theorem head?_codeFrom (language text : List Char) (lines : List (List Char)) :
    ∀ block ∈ (codeFrom language text lines).head?, ¬ block.IsProse := by
  induction lines generalizing text with
  | nil =>
    rintro block ⟨⟩
    exact id
  | cons line lines ih =>
    rw [codeFrom]
    split
    · rintro block ⟨⟩
      exact id
    · exact ih _

/-- One line after another, by whether it comes in prose or in code. -/
theorem layout_from {lines : List (List Char)} (free : ∀ line ∈ lines, '\n' ∉ line) :
    (∀ before : List (List Char), (∀ line ∈ before, '\n' ∉ line ∧ ¬ fence <+: line) →
      Layout (proseFrom (joined before) lines)) ∧
    ∀ (language : List Char) (before : List (List Char)), '\n' ∉ language →
      (∀ line ∈ before, '\n' ∉ line ∧ line ≠ fence) → Layout (codeFrom language (joined before) lines) := by
  induction lines with
  | nil =>
    constructor
    · intro before plain
      have layout := Layout.ofProse_append plain layout_nil fun _ among => nomatch among
      rwa [List.append_nil] at layout
    · exact fun language before named inside => .code_cons (.code named inside) layout_nil
  | cons line lines ih =>
    have here := free line List.mem_cons_self
    obtain ⟨proses, codes⟩ := ih fun other among => free other (List.mem_cons_of_mem line among)
    constructor
    · intro before plain
      cases opens : dropWord fence line with
      | none =>
        rw [proseFrom, opens, ← joined_concat]
        refine proses _ fun other among => ?_
        rcases List.mem_append.mp among with among | among
        · exact plain other among
        · rw [List.mem_singleton.mp among]
          exact ⟨here, dropWord_eq_none_iff.mp opens⟩
      | some language =>
        rw [proseFrom, opens]
        have named : '\n' ∉ language := by
          rw [dropWord_eq_some_iff.mp opens] at here
          exact fun newline => here (List.mem_append_right fence newline)
        have layout := codes language [] named (List.forall_mem_nil _)
        exact .ofProse_append plain layout (head?_codeFrom language [] lines)
    · intro language before named inside
      by_cases closes : line = fence
      · rw [closes, codeFrom_closing]
        exact .code_cons (.code named inside) (proses [] (List.forall_mem_nil _))
      · rw [codeFrom, if_neg closes, ← joined_concat]
        refine codes language _ named fun other among => ?_
        rcases List.mem_append.mp among with among | among
        · exact inside other among
        · rw [List.mem_singleton.mp among]
          exact ⟨here, closes⟩

theorem layout_ofText (text : List Char) : Layout (ofText text) :=
  (layout_from fun _ among => newline_not_mem_line among).1 [] (List.forall_mem_nil _)

/-! ## The text of blocks -/

/-- The text of a block, with the fences of code. -/
def chars : Block → List Char
  | .prose text => text
  | .code language text => fence ++ ended language ++ text ++ ended fence

theorem proseFrom_of_layout {blocks : List Block} (layout : Layout blocks) :
    ∃ lines, blocks.flatMap chars = joined lines ∧ (∀ line ∈ lines, '\n' ∉ line) ∧
      ∀ text, (text = [] ∨ ∀ block ∈ blocks.head?, ¬ block.IsProse) → proseFrom text lines = ofProse text ++ blocks := by
  obtain ⟨laid, apart⟩ := layout
  induction blocks with
  | nil => exact ⟨[], rfl, List.forall_mem_nil _, fun text _ => (List.append_nil _).symm⟩
  | cons block blocks ih =>
    obtain ⟨next, apart⟩ := List.isChain_cons.mp apart
    obtain ⟨rest, same, free, reads⟩ := ih (fun other among => laid other (List.mem_cons_of_mem block among)) apart
    rw [List.flatMap_cons, same]
    cases laid block List.mem_cons_self with
    | @prose lines nonempty plain =>
      refine ⟨lines ++ rest, (joined_append lines rest).symm, ?_, fun text begins => ?_⟩
      · intro line among
        rcases List.mem_append.mp among with among | among
        · exact (plain line among).1
        · exact free line among
      · have empty : text = [] := begins.resolve_right fun coded => coded _ rfl trivial
        rw [empty, proseFrom_append fun line among => (plain line among).2, List.nil_append,
          reads _ (.inr fun other among => next other among trivial),
          ofProse_of_ne_nil (mt joined_eq_nil_iff.mp nonempty)]
        rfl
    | @code language lines named inside =>
      refine ⟨(fence ++ language) :: (lines ++ fence :: rest), ?_, ?_, fun text _ => ?_⟩
      · simp [chars, joined, ended]
      · intro line among
        simp only [List.mem_cons, List.mem_append] at among
        rcases among with rfl | among | rfl | among
        · simp [fence, named]
        · exact (inside line among).1
        · decide
        · exact free line among
      · rw [proseFrom_opening, codeFrom_append fun among => (inside fence among).2 rfl, List.nil_append,
          codeFrom_closing, reads [] (.inl rfl)]
        rfl

/-- Blocks that are laid out are read of their text, as long as no line of it loses a carriage return. -/
theorem ofText_flatMap_chars {blocks : List Block} (layout : Layout blocks)
    (bare : ¬ ['\r', '\n'] <:+: blocks.flatMap chars) : ofText (blocks.flatMap chars) = blocks := by
  obtain ⟨lines, same, free, reads⟩ := proseFrom_of_layout layout
  rw [same] at bare ⊢
  rw [ofText, lines_joined_of_free free bare]
  exact reads [] (.inl rfl)

/-! ## Lost carriage returns -/

/-- A text with `"\r\n"` has a line that ends with a carriage return. -/
theorem exists_line_ending_in_return {lines : List (List Char)} (free : ∀ line ∈ lines, '\n' ∉ line)
    (returns : ['\r', '\n'] <:+: joined lines) : ∃ line ∈ lines, line.getLast? = some '\r' := by
  obtain ⟨piece, among, ends⟩ := exists_piece_ending_in_return returns
  rw [pieces_joined free, List.mem_append] at among
  rcases among with among | last
  · exact ⟨piece, among, ends⟩
  · rw [List.mem_singleton.mp last] at ends
    cases ends

theorem count_dropReturn_le (line : List Char) : (dropReturn line).count '\r' ≤ line.count '\r' := by
  unfold dropReturn
  split
  · exact (List.dropLast_sublist line).count_le '\r'
  · exact Nat.le_refl _

theorem count_dropReturn_of_return {line : List Char} (ends : line.getLast? = some '\r') :
    (dropReturn line).count '\r' + 1 = line.count '\r' := by
  obtain ⟨front, rfl⟩ := List.getLast?_eq_some_iff.mp ends
  simp [dropReturn_append_return]

theorem count_map_dropReturn_le (lines : List (List Char)) :
    (lines.map dropReturn).flatten.count '\r' ≤ lines.flatten.count '\r' := by
  induction lines with
  | nil => exact Nat.le_refl _
  | cons line lines ih =>
    simp only [List.map_cons, List.flatten_cons, List.count_append]
    have here := count_dropReturn_le line
    omega

theorem count_map_dropReturn_lt {lines : List (List Char)} (ends : ∃ line ∈ lines, line.getLast? = some '\r') :
    (lines.map dropReturn).flatten.count '\r' < lines.flatten.count '\r' := by
  obtain ⟨line, among, ends⟩ := ends
  obtain ⟨before, after, rfl⟩ := List.append_of_mem among
  have here := count_dropReturn_of_return ends
  have front := count_map_dropReturn_le before
  have rear := count_map_dropReturn_le after
  simp only [List.map_append, List.map_cons, List.flatten_append, List.flatten_cons, List.count_append]
  omega

theorem count_joined (lines : List (List Char)) : (joined lines).count '\r' = lines.flatten.count '\r' := by
  induction lines with
  | nil => rfl
  | cons line lines ih => simp [joined_cons, ended, ih]

theorem count_ofProse (text : List Char) : ((ofProse text).flatMap chars).count '\r' = text.count '\r' := by
  unfold ofProse
  split
  · next empty => simp [empty]
  · simp [chars]

/-- The blocks of some lines have the carriage returns of the lines. -/
theorem count_from (lines : List (List Char)) :
    (∀ text, ((proseFrom text lines).flatMap chars).count '\r' = text.count '\r' + lines.flatten.count '\r') ∧
    ∀ language text, ((codeFrom language text lines).flatMap chars).count '\r' =
      language.count '\r' + text.count '\r' + lines.flatten.count '\r' := by
  induction lines with
  | nil =>
    constructor
    · exact fun text => count_ofProse text
    · intro language text
      simp [codeFrom, chars, ended, fence]
  | cons line lines ih =>
    obtain ⟨proses, codes⟩ := ih
    constructor
    · intro text
      cases opens : dropWord fence line with
      | none =>
        rw [proseFrom, opens, proses]
        simp [ended, Nat.add_assoc]
      | some language =>
        obtain rfl := dropWord_eq_some_iff.mp opens
        rw [proseFrom_opening, List.flatMap_append, List.count_append, count_ofProse, codes]
        simp [fence]
    · intro language text
      by_cases closes : line = fence
      · subst closes
        rw [codeFrom_closing, List.flatMap_cons, List.count_append, proses]
        simp [chars, ended, fence]
      · rw [codeFrom, if_neg closes, codes]
        simp [ended, Nat.add_assoc]

/-- Reading takes the carriage return off the end of a line. -/
theorem count_ofText_lt {lines : List (List Char)} (free : ∀ line ∈ lines, '\n' ∉ line)
    (returns : ['\r', '\n'] <:+: joined lines) :
    ((ofText (joined lines)).flatMap chars).count '\r' < (joined lines).count '\r' := by
  rw [ofText, (count_from _).1, lines_joined free, count_joined, List.count_nil, Nat.zero_add]
  exact count_map_dropReturn_lt (exists_line_ending_in_return free returns)

end Block

end Language

end Polyglot
