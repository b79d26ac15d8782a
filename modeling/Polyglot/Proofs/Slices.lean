import Polyglot.Json.Cursor
import Polyglot.Text.Search

/-!
# Slices

A part of a text is named by two offsets, counted in bytes. They name one just when they are in order, lie in the text
and are each where a character begins or the text ends (`slice?_eq_some_iff`).
-/

namespace Polyglot.Text

open Json.Reader (byteCount)

theorem byteCount_append (front rear : List Char) : byteCount (front ++ rear) = byteCount front + byteCount rear := by
  induction front with
  | nil => exact (Nat.zero_add _).symm
  | cons c front ih =>
    rw [List.cons_append]
    show c.utf8Size + byteCount (front ++ rear) = c.utf8Size + byteCount front + byteCount rear
    rw [ih, Nat.add_assoc]

theorem length_le_byteCount (text : List Char) : text.length ≤ byteCount text := by
  induction text with
  | nil => exact Nat.le_refl 0
  | cons c text ih =>
    have positive := c.utf8Size_pos
    show text.length + 1 ≤ c.utf8Size + byteCount text
    omega

theorem byteCount_eq_length {text : List Char} (narrow : ∀ c ∈ text, c.utf8Size = 1) : byteCount text = text.length := by
  induction text with
  | nil => rfl
  | cons c rest ih =>
    have here := narrow c List.mem_cons_self
    have later := ih fun d member => narrow d (List.mem_cons_of_mem c member)
    show c.utf8Size + byteCount rest = rest.length + 1
    omega

theorem utf8Size_of_isDigit {c : Char} (digit : c.isDigit = true) : c.utf8Size = 1 := by
  simp only [Char.isDigit, Bool.and_eq_true, decide_eq_true_eq] at digit
  have narrow : c.val ≤ 0x7f := Nat.le_trans digit.2 (by decide)
  exact if_pos narrow

theorem byteCount_replicate {c : Char} (narrow : c.utf8Size = 1) (count : Nat) :
    byteCount (List.replicate count c) = count := by
  rw [byteCount_eq_length, List.length_replicate]
  intro d member
  rw [List.eq_of_mem_replicate member, narrow]

theorem byteCount_le_intercalate {row : List Char} {rows : List (List Char)} (member : row ∈ rows) :
    byteCount row ≤ byteCount (['\n'].intercalate rows) := by
  induction rows with
  | nil => cases member
  | cons head rest ih =>
    cases rest with
    | nil =>
      obtain rfl := List.mem_singleton.mp member
      exact Nat.le_of_eq (congrArg byteCount (List.intercalate_singleton).symm)
    | cons next more =>
      rw [List.intercalate_cons_cons, byteCount_append, byteCount_append]
      rcases List.mem_cons.mp member with rfl | later
      · omega
      · have := ih later
        omega

/-- A text cut at an offset, where a character begins or the text ends. -/
def cutAt : List Char → Nat → Option (List Char × List Char)
  | text, 0 => some ([], text)
  | [], _ + 1 => none
  | c :: rest, offset + 1 =>
    if c.utf8Size ≤ offset + 1 then
      (cutAt rest (offset + 1 - c.utf8Size)).map fun (front, rear) => (c :: front, rear)
    else none

/-- The part of a text between two offsets. -/
def slice? (text : List Char) (start stop : Nat) : Option (List Char) :=
  if start ≤ stop then (cutAt text stop).bind fun cut => (cutAt cut.1 start).map Prod.snd else none

/-- The offset where a word first begins. -/
def find? (word text : List Char) : Option Nat :=
  (splitAtFirst word text).map fun (before, _) => byteCount before

variable {text front rear part : List Char} {offset start stop : Nat}

theorem cutAt_byteCount (front rear : List Char) : cutAt (front ++ rear) (byteCount front) = some (front, rear) := by
  induction front with
  | nil =>
    rw [List.nil_append]
    unfold cutAt
    rfl
  | cons c front ih =>
    have positive := c.utf8Size_pos
    have count : byteCount (c :: front) = c.utf8Size + byteCount front := rfl
    obtain ⟨before, same⟩ : ∃ before, byteCount (c :: front) = before + 1 :=
      Nat.exists_eq_add_of_le' (by omega)
    have left : before + 1 - c.utf8Size = byteCount front := by omega
    rw [same, List.cons_append, cutAt, if_pos (by omega), left, ih]
    rfl

theorem cutAt_eq_some_iff :
    cutAt text offset = some (front, rear) ↔ text = front ++ rear ∧ offset = byteCount front := by
  constructor
  · intro cut
    induction text, offset using cutAt.induct generalizing front with
    | case1 text =>
      rw [cutAt] at cut
      cases cut
      exact ⟨rfl, rfl⟩
    | case2 offset => cases cut
    | case3 c rest offset fits ih =>
      rw [cutAt, if_pos fits] at cut
      obtain ⟨⟨before, after⟩, inner, same⟩ := Option.map_eq_some_iff.mp cut
      cases same
      obtain ⟨rfl, left⟩ := ih inner
      have count : byteCount (c :: before) = c.utf8Size + byteCount before := rfl
      exact ⟨rfl, by omega⟩
    | case4 c rest offset exceeds =>
      rw [cutAt, if_neg exceeds] at cut
      cases cut
  · rintro ⟨rfl, rfl⟩
    exact cutAt_byteCount front rear

theorem slice?_eq_some_iff : slice? text start stop = some part ↔
    ∃ front rear, text = front ++ part ++ rear ∧ start = byteCount front ∧ stop = byteCount (front ++ part) := by
  constructor
  · intro sliced
    unfold slice? at sliced
    split at sliced
    · obtain ⟨⟨whole, rear⟩, outer, sliced⟩ := Option.bind_eq_some_iff.mp sliced
      obtain ⟨⟨front, part⟩, inner, rfl⟩ := Option.map_eq_some_iff.mp sliced
      obtain ⟨rfl, rfl⟩ := cutAt_eq_some_iff.mp outer
      obtain ⟨rfl, rfl⟩ := cutAt_eq_some_iff.mp inner
      exact ⟨front, rear, rfl, rfl, rfl⟩
    · cases sliced
  · rintro ⟨front, rear, rfl, rfl, rfl⟩
    have ordered : byteCount front ≤ byteCount (front ++ part) := by
      rw [byteCount_append]
      exact Nat.le_add_right _ _
    rw [slice?, if_pos ordered, cutAt_byteCount, Option.bind_some, cutAt_byteCount, Option.map_some]

end Polyglot.Text
