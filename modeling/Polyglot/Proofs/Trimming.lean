import Mathlib.Data.List.DropRight
import Mathlib.Data.List.Infix
import Polyglot.Text.Blank
import Polyglot.Text.Search

/-!
# Trimming and first occurrences

Blanks at the ends of a text do not count for a trimmed text, and trimming it once more changes nothing
(`trim_trim`). The first occurrence of a word is where it is whatever follows it
(`splitAtFirst_of_other_after`).
-/

namespace Polyglot.Text

variable {text blanks : List Char}

/-! ## Trimming -/

theorem trimEnd_append_of_blank (blank : ∀ c ∈ blanks, isBlank c = true) (text : List Char) :
    trimEnd (text ++ blanks) = trimEnd text := by
  have reversed : ∀ c ∈ blanks.reverse, isBlank c = true := fun c member => blank c (List.mem_reverse.mp member)
  simp only [trimEnd, dropEndWhile, List.reverse_append, List.dropWhile_append_of_pos reversed]

theorem trimEnd_append_newline (text : List Char) : trimEnd (text ++ ['\n']) = trimEnd text :=
  trimEnd_append_of_blank (List.forall_mem_singleton.mpr rfl) text

/-- Nothing is trimmed before the last character that is not blank. -/
theorem trimEnd_append_of_visible {c : Char} (visible : isBlank c = false) (front rest : List Char) :
    trimEnd (front ++ c :: rest) = front ++ c :: trimEnd rest := by
  simp only [trimEnd, dropEndWhile, List.reverse_append, List.reverse_cons, List.append_assoc, List.singleton_append]
  rw [List.dropWhile_append]
  split
  · next gone => simp [List.isEmpty_iff.mp gone, visible]
  · simp

theorem trimEnd_concat_of_visible {c : Char} (visible : isBlank c = false) (text : List Char) :
    trimEnd (text ++ [c]) = text ++ [c] :=
  trimEnd_append_of_visible visible text []

theorem trimEnd_trimEnd (text : List Char) : trimEnd (trimEnd text) = trimEnd text :=
  List.rdropWhile_idempotent isBlank text

theorem prefix_of_trimEnd (text : List Char) : trimEnd text <+: text := List.rdropWhile_prefix isBlank text

theorem trim_append_of_blank (blank : ∀ c ∈ blanks, isBlank c = true) (text : List Char) :
    trim (text ++ blanks) = trim text := by
  unfold trim trimStart
  rw [List.dropWhile_append]
  split
  · next gone =>
    have blanksGone : blanks.dropWhile isBlank = [] := List.dropWhile_eq_nil_iff.mpr blank
    rw [blanksGone, List.isEmpty_iff.mp gone]
  · exact trimEnd_append_of_blank blank _

theorem trim_append_left_of_blank (blank : ∀ c ∈ blanks, isBlank c = true) (text : List Char) :
    trim (blanks ++ text) = trim text := by
  rw [trim, trimStart, List.dropWhile_append_of_pos blank]
  rfl

theorem trim_append_space (text : List Char) : trim (text ++ [' ']) = trim text :=
  trim_append_of_blank (List.forall_mem_singleton.mpr rfl) text

theorem trim_space_cons (text : List Char) : trim (' ' :: text) = trim text :=
  trim_append_left_of_blank (List.forall_mem_singleton.mpr rfl) text

/-- A text between two characters that are not blank keeps its ends. -/
theorem trim_of_visible {first last : Char} (begins : isBlank first = false) (ends : isBlank last = false)
    (text : List Char) : trim (first :: text ++ [last]) = first :: text ++ [last] := by
  have kept : trimStart (first :: text ++ [last]) = first :: text ++ [last] := by
    simp [trimStart, begins]
  rw [trim, kept, trimEnd_concat_of_visible ends]

theorem trimStart_trimEnd_of_trimStart (text : List Char) :
    trimStart (trimEnd (trimStart text)) = trimEnd (trimStart text) := by
  -- What is left begins as the text without its first blanks begins, with no blank.
  obtain ⟨removed, split, _⟩ := dropEndWhile_append_removed isBlank (trimStart text)
  cases left : trimEnd (trimStart text) with
  | nil => rfl
  | cons c rest =>
    have begins := List.head?_dropWhile_not isBlank text
    have same : text.dropWhile isBlank = c :: rest ++ removed := by rw [← left]; exact split
    rw [same] at begins
    have visible : isBlank c = false := begins
    simp [trimStart, visible]

theorem trim_trim (text : List Char) : trim (trim text) = trim text := by
  unfold trim
  rw [trimStart_trimEnd_of_trimStart, trimEnd_trimEnd]

theorem infix_of_trim (text : List Char) : trim text <:+: text :=
  (prefix_of_trimEnd _).isInfix.trans (List.dropWhile_suffix isBlank).isInfix

/-! ## First occurrences -/

theorem dropWord_eq_none_iff {word : List Char} : dropWord word text = none ↔ ¬ word <+: text := by
  rw [Option.eq_none_iff_forall_ne_some]
  constructor
  · rintro fails ⟨rest, whole⟩
    exact fails rest (dropWord_eq_some_iff.mpr whole.symm)
  · rintro apart rest found
    exact apart ⟨rest, (dropWord_eq_some_iff.mp found).symm⟩

theorem splitAtFirst_eq_none_iff {word : List Char} : splitAtFirst word text = none ↔ ¬ word <:+: text := by
  induction text with
  | nil => simp [splitAtFirst]
  | cons c rest ih =>
    rw [splitAtFirst, List.infix_cons_iff, not_or, ← ih, ← dropWord_eq_none_iff]
    cases dropWord word (c :: rest) <;> simp

theorem prefix_of_append_dropLast (front word after : List Char) : front ++ word.dropLast <+: front ++ word ++ after := by
  rw [List.append_assoc, List.prefix_append_right_inj]
  exact List.prefix_append_of_prefix (List.dropLast_prefix word)

/-- A word is the first occurrence when none begins before it, be it that it overlaps this one. -/
theorem splitAtFirst_of_first {word before : List Char} (nonempty : word ≠ [])
    (first : ¬ word <:+: before ++ word.dropLast) (after : List Char) :
    splitAtFirst word (before ++ word ++ after) = some (before, after) := by
  induction before with
  | nil =>
    obtain ⟨w, ws, rfl⟩ := List.exists_cons_of_ne_nil nonempty
    have found : dropWord (w :: ws) (w :: (ws ++ after)) = some after := dropWord_eq_some_iff.mpr rfl
    simp [splitAtFirst, found]
  | cons c before ih =>
    rw [List.cons_append, List.infix_cons_iff, not_or] at first
    have apart : dropWord word (c :: (before ++ word ++ after)) = none := by
      refine dropWord_eq_none_iff.mpr fun atFront => first.1 ?_
      refine List.prefix_of_prefix_length_le atFront (prefix_of_append_dropLast (c :: before) word after) ?_
      simp
      omega
    rw [List.cons_append, List.cons_append, splitAtFirst, apart, ih first.2]
    rfl

theorem first_of_splitAtFirst {word before after : List Char} (nonempty : word ≠ [])
    (split : splitAtFirst word text = some (before, after)) : ¬ word <:+: before ++ word.dropLast := by
  induction text generalizing before with
  | nil => simp [splitAtFirst, nonempty] at split
  | cons c rest ih =>
    rw [splitAtFirst] at split
    cases found : dropWord word (c :: rest) with
    | some last =>
      rw [found] at split
      cases split
      have positive := List.length_pos_iff.mpr nonempty
      intro inside
      have short := inside.length_le
      rw [List.nil_append, List.length_dropLast] at short
      omega
    | none =>
      rw [found] at split
      obtain ⟨⟨front, rear⟩, inner, same⟩ := Option.map_eq_some_iff.mp split
      cases same
      rw [List.cons_append, List.infix_cons_iff, not_or]
      refine ⟨fun atFront => dropWord_eq_none_iff.mp found (atFront.trans ?_), ih inner⟩
      rw [eq_append_of_splitAtFirst inner]
      exact prefix_of_append_dropLast (c :: front) word after

/-- What follows the first occurrence may be changed. -/
theorem splitAtFirst_of_other_after {word before after : List Char} (nonempty : word ≠ [])
    (split : splitAtFirst word text = some (before, after)) (other : List Char) :
    splitAtFirst word (before ++ word ++ other) = some (before, other) :=
  splitAtFirst_of_first nonempty (first_of_splitAtFirst nonempty split) other

/-- The first occurrence of a character has none before it. -/
theorem splitAtFirst_singleton_eq_some_iff {c : Char} {before after : List Char} :
    splitAtFirst [c] text = some (before, after) ↔ text = before ++ c :: after ∧ c ∉ before := by
  have nonempty : [c] ≠ [] := List.cons_ne_nil c []
  constructor
  · intro split
    have first := first_of_splitAtFirst nonempty split
    rw [List.dropLast_singleton, List.append_nil, List.singleton_infix_iff] at first
    exact ⟨by simpa using eq_append_of_splitAtFirst split, first⟩
  · rintro ⟨rfl, first⟩
    have none : ¬ [c] <:+: before ++ [c].dropLast := by simpa [List.singleton_infix_iff] using first
    simpa using splitAtFirst_of_first nonempty none after

end Polyglot.Text
