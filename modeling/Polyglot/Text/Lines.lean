/-!
# Lines of a text

Two ways to cut a text at its newlines. `pieces` cuts at every newline, so a
text that ends with a newline has an empty last piece. `lines` lists the lines
that a newline or the end of the text completes, without their line endings.
-/

namespace Polyglot.Text

/-- The parts of a text between its newlines, at least one. -/
def pieces : List Char → List (List Char)
  | [] => [[]]
  | c :: rest =>
    if c = '\n' then [] :: pieces rest
    else
      match pieces rest with
      | [] => [[c]]
      | piece :: more => (c :: piece) :: more

/-- A line without one carriage return at its end. -/
def dropReturn (line : List Char) : List Char :=
  if line.getLast? = some '\r' then line.dropLast else line

/-- The pieces of a text, each without a carriage return at its end. -/
def sourceLines (text : List Char) : List (List Char) := (pieces text).map dropReturn

/-- Ends the pieces before the last one as lines; the last one is a line only
    when it is not empty, and keeps a carriage return. -/
def completeLines : List (List Char) → List (List Char)
  | [] => []
  | [last] => if last = [] then [] else [last]
  | piece :: more => dropReturn piece :: completeLines more

/-- The lines of a text without their endings, `"\n"` or `"\r\n"`. -/
def lines (text : List Char) : List (List Char) := completeLines (pieces text)

theorem pieces_ne_nil (text : List Char) : pieces text ≠ [] := by
  cases text with
  | nil => simp [pieces]
  | cons c rest =>
    simp only [pieces]
    split
    · simp
    · split <;> simp

theorem sourceLines_length_pos (text : List Char) : 0 < (sourceLines text).length := by
  simpa [sourceLines, List.length_pos_iff] using pieces_ne_nil text

theorem pieces_eq_splitOn (text : List Char) : pieces text = text.splitOn '\n' := by
  induction text with
  | nil => rfl
  | cons c rest ih =>
    rw [List.splitOn_cons_eq_if_modifyHead, ← ih, pieces]
    simp only [beq_iff_eq]
    split
    · rfl
    · cases found : pieces rest with
      | nil => exact absurd found (pieces_ne_nil rest)
      | cons piece more => rfl

/-- Joining the pieces with newlines gives back the text. -/
theorem intercalate_pieces (text : List Char) : ['\n'].intercalate (pieces text) = text := by
  rw [pieces_eq_splitOn, List.intercalate_splitOn]

/-- Parts that are joined with newlines are the pieces of what they make, as long as no newline is in them. -/
theorem pieces_intercalate {parts : List (List Char)} (nonempty : parts ≠ [])
    (free : ∀ part ∈ parts, '\n' ∉ part) : pieces (['\n'].intercalate parts) = parts := by
  rw [pieces_eq_splitOn, List.splitOn_intercalate '\n' free nonempty]

theorem newline_not_mem_piece {text piece : List Char} (member : piece ∈ pieces text) : '\n' ∉ piece := by
  induction text generalizing piece with
  | nil =>
    rw [List.mem_singleton.mp member]
    exact List.not_mem_nil
  | cons c rest ih =>
    rw [pieces] at member
    split at member
    · rcases List.mem_cons.mp member with rfl | member
      · exact List.not_mem_nil
      · exact ih member
    · next other =>
      cases found : pieces rest with
      | nil => exact absurd found (pieces_ne_nil rest)
      | cons first more =>
        rw [found] at member ih
        rcases List.mem_cons.mp member with rfl | member
        · exact List.not_mem_cons_of_ne_of_not_mem (Ne.symm other) (ih List.mem_cons_self)
        · exact ih (List.mem_cons_of_mem first member)

theorem newline_not_mem_sourceLine {text line : List Char} (member : line ∈ sourceLines text) : '\n' ∉ line := by
  obtain ⟨piece, among, rfl⟩ := List.mem_map.mp member
  have free := newline_not_mem_piece among
  unfold dropReturn
  split
  · exact fun newline => free ((List.dropLast_sublist piece).subset newline)
  · exact free

theorem length_pieces_le (text : List Char) : (pieces text).length ≤ text.length + 1 := by
  induction text with
  | nil => exact Nat.le_refl 1
  | cons c rest ih =>
    rw [pieces]
    split
    · exact Nat.succ_le_succ ih
    · cases found : pieces rest with
      | nil => exact Nat.le_add_left 1 _
      | cons piece more =>
        rw [found] at ih
        exact Nat.le_succ_of_le ih

theorem length_le_of_mem_pieces {text piece : List Char} (member : piece ∈ pieces text) :
    piece.length ≤ text.length := by
  induction text generalizing piece with
  | nil =>
    obtain rfl := List.mem_singleton.mp member
    exact Nat.le_refl 0
  | cons c rest ih =>
    rw [pieces] at member
    split at member
    · rcases List.mem_cons.mp member with rfl | member
      · exact Nat.zero_le _
      · exact Nat.le_succ_of_le (ih member)
    · cases found : pieces rest with
      | nil => exact absurd found (pieces_ne_nil rest)
      | cons first more =>
        rw [found] at member ih
        rcases List.mem_cons.mp member with rfl | member
        · exact Nat.succ_le_succ (ih List.mem_cons_self)
        · exact Nat.le_succ_of_le (ih (List.mem_cons_of_mem first member))

theorem length_dropReturn_le (line : List Char) : (dropReturn line).length ≤ line.length := by
  unfold dropReturn
  split
  · exact (List.dropLast_sublist line).length_le
  · exact Nat.le_refl _

theorem length_sourceLines_le (text : List Char) : (sourceLines text).length ≤ text.length + 1 := by
  rw [sourceLines, List.length_map]
  exact length_pieces_le text

theorem length_le_of_mem_sourceLines {text line : List Char} (member : line ∈ sourceLines text) :
    line.length ≤ text.length := by
  obtain ⟨piece, among, rfl⟩ := List.mem_map.mp member
  exact Nat.le_trans (length_dropReturn_le piece) (length_le_of_mem_pieces among)

end Polyglot.Text
