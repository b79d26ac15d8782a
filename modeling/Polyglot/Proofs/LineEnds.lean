import Mathlib.Data.List.Infix
import Polyglot.Frame.Basic
import Polyglot.Text.Search

/-!
# Line ends

The lines of a text end with `"\n"` or with `"\r\n"`. Where a text has only ends of the one kind, those of the other
kind in their place give the same lines (`sourceLines_withReturns`), and so each location has the same frame in both
texts (`render_withReturns`). A carriage return that ends no line stays where it is.
-/

namespace Polyglot

namespace Text

/-- A text with `"\r\n"` in the place of every `"\n"`. -/
def withReturns (text : String) : String := String.ofList (replaceAll ['\n'] ['\r', '\n'] text.toList)

/-- The pieces that such a text has: each but the last one ends with a carriage return more. -/
def returned : List (List Char) → List (List Char)
  | [] => []
  | [last] => [last]
  | piece :: next :: more => (piece ++ ['\r']) :: returned (next :: more)

theorem replaceAll_newline_cons (replacement rest : List Char) :
    replaceAll ['\n'] replacement ('\n' :: rest) = replacement ++ replaceAll ['\n'] replacement rest := by
  simp [replaceAll, replaceFrom, dropWord]

theorem replaceAll_cons_of_ne {c : Char} (other : c ≠ '\n') (replacement rest : List Char) :
    replaceAll ['\n'] replacement (c :: rest) = c :: replaceAll ['\n'] replacement rest := by
  simp [replaceAll, replaceFrom, dropWord, Ne.symm other]

theorem pieces_newline_cons (rest : List Char) : pieces ('\n' :: rest) = [] :: pieces rest := if_pos rfl

theorem pieces_cons_of_ne {c : Char} (other : c ≠ '\n') {rest piece : List Char} {more : List (List Char)}
    (found : pieces rest = piece :: more) : pieces (c :: rest) = (c :: piece) :: more := by
  rw [pieces, if_neg other, found]

theorem returned_cons_of_ne_nil (piece : List Char) {more : List (List Char)} (nonempty : more ≠ []) :
    returned (piece :: more) = (piece ++ ['\r']) :: returned more := by
  cases more with
  | nil => exact absurd rfl nonempty
  | cons next more => rfl

theorem pieces_replaceAll_newline (text : List Char) :
    pieces (replaceAll ['\n'] ['\r', '\n'] text) = returned (pieces text) := by
  induction text with
  | nil => rfl
  | cons c rest ih =>
    by_cases newline : c = '\n'
    · subst newline
      rw [replaceAll_newline_cons, List.cons_append, List.singleton_append, pieces_newline_cons,
        pieces_cons_of_ne (by decide) (pieces_newline_cons _), ih, returned_cons_of_ne_nil _ (pieces_ne_nil rest)]
      rfl
    · rw [replaceAll_cons_of_ne newline]
      obtain ⟨piece, more, found⟩ := List.exists_cons_of_ne_nil (pieces_ne_nil rest)
      rw [found] at ih
      rw [pieces_cons_of_ne newline found]
      cases more with
      | nil => exact pieces_cons_of_ne newline ih
      | cons next more => exact pieces_cons_of_ne newline ih

/-! ## Returns before line ends -/

/-- Every piece but the last one has a newline after it. -/
theorem append_newline_infix {parts : List (List Char)} {piece : List Char} (member : piece ∈ parts.dropLast) :
    piece ++ ['\n'] <:+: ['\n'].intercalate parts := by
  induction parts with
  | nil => cases member
  | cons first more ih =>
    cases more with
    | nil => cases member
    | cons next more =>
      rw [List.intercalate_cons_cons]
      rcases List.mem_cons.mp member with rfl | later
      · exact (List.prefix_append _ _).isInfix
      · exact (ih later).trans (List.suffix_append _ _).isInfix

theorem getLast?_ne_return_of_free {text piece : List Char} (free : ¬ ['\r', '\n'] <:+: text)
    (member : piece ∈ (pieces text).dropLast) : piece.getLast? ≠ some '\r' := by
  intro ends
  obtain ⟨front, rfl⟩ := List.getLast?_eq_some_iff.mp ends
  have after := append_newline_infix member
  rw [intercalate_pieces, List.append_assoc] at after
  exact free ((List.suffix_append front _).isInfix.trans after)

theorem dropReturn_append_return (line : List Char) : dropReturn (line ++ ['\r']) = line := by
  rw [dropReturn, if_pos List.getLast?_concat, List.dropLast_concat]

theorem dropReturn_of_getLast?_ne {line : List Char} (ends : line.getLast? ≠ some '\r') : dropReturn line = line :=
  if_neg ends

theorem map_dropReturn_returned {parts : List (List Char)}
    (free : ∀ piece ∈ parts.dropLast, piece.getLast? ≠ some '\r') :
    (returned parts).map dropReturn = parts.map dropReturn := by
  induction parts with
  | nil => rfl
  | cons piece more ih =>
    cases more with
    | nil => rfl
    | cons next more =>
      have here := free piece (List.mem_cons_self ..)
      have later := ih fun other member => free other (List.mem_cons_of_mem piece member)
      rw [returned, List.map_cons, later, dropReturn_append_return]
      exact congrArg (· :: _) (dropReturn_of_getLast?_ne here).symm

theorem sourceLines_withReturns {text : String} (free : ¬ ['\r', '\n'] <:+: text.toList) :
    sourceLines (withReturns text).toList = sourceLines text.toList := by
  rw [withReturns, String.toList_ofList, sourceLines, pieces_replaceAll_newline]
  exact map_dropReturn_returned fun _ member => getLast?_ne_return_of_free free member

end Text

namespace Frame

/-- Which of the two ends a text gives its lines does not matter to a frame. -/
theorem render_withReturns (settings : FrameSettings) {text : String} (free : ¬ ['\r', '\n'] <:+: text.toList)
    (location : Location) : render settings (Text.withReturns text) location = render settings text location := by
  simp only [render, Text.sourceLines_withReturns free]

section

/-- One carriage return inside a line, and one at the very end. -/
def loneReturns : String := "a\rb\nc\n\r"

/-- From the carriage return in the first line to the end of the second. -/
theorem render_of_loneReturns :
    ¬ ['\r', '\n'] <:+: loneReturns.toList ∧
      Text.withReturns loneReturns = "a\rb\r\nc\r\n\r" ∧
      render {} (Text.withReturns loneReturns) (.range ⟨1, 2⟩ ⟨3, 1⟩) =
        render {} loneReturns (.range ⟨1, 2⟩ ⟨3, 1⟩) ∧
      render {} loneReturns (.range ⟨1, 2⟩ ⟨3, 1⟩) = "> 1 | a\rb\n    |  ^^\n> 2 | c\n    | ^\n  3 |" := by
  have free : ¬ ['\r', '\n'] <:+: loneReturns.toList := by decide
  exact ⟨free, by decide, render_withReturns {} free _, by decide⟩

end

end Frame

end Polyglot
