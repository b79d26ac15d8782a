/-!
# Searching a text

The first occurrence of a word in a text, and replacing every occurrence.
-/

namespace Polyglot.Text

/-- What follows `word` in a text that begins with it. -/
def dropWord : List Char → List Char → Option (List Char)
  | [], text => some text
  | _ :: _, [] => none
  | w :: word, c :: text => if w = c then dropWord word text else none

/-- What precedes `word` in a text that ends with it. -/
def dropEndWord (word text : List Char) : Option (List Char) :=
  (dropWord word.reverse text.reverse).map List.reverse

/-- What stands before and after the first occurrence of `word`. -/
def splitAtFirst (word : List Char) : List Char → Option (List Char × List Char)
  | [] => if word = [] then some ([], []) else none
  | c :: rest =>
    match dropWord word (c :: rest) with
    | some after => some ([], after)
    | none => (splitAtFirst word rest).map fun (before, after) => (c :: before, after)

/-- Whether `word` occurs in the text. -/
def contains (word text : List Char) : Bool := (splitAtFirst word text).isSome

/-- Replaces the occurrences of the non-empty `word` from the left, after
    passing over `skip` characters that belong to an occurrence already replaced. -/
def replaceFrom (word replacement : List Char) : Nat → List Char → List Char
  | _, [] => []
  | skip + 1, _ :: rest => replaceFrom word replacement skip rest
  | 0, c :: rest =>
    if (dropWord word (c :: rest)).isSome then
      replacement ++ replaceFrom word replacement (word.length - 1) rest
    else c :: replaceFrom word replacement 0 rest

/-- Replaces every occurrence of `word`, none overlapping another. The empty
    word occurs before every character and at the end. -/
def replaceAll (word replacement text : List Char) : List Char :=
  if word = [] then replacement ++ text.flatMap (fun c => c :: replacement)
  else replaceFrom word replacement 0 text

theorem dropWord_eq_some_iff {word text rest : List Char} :
    dropWord word text = some rest ↔ text = word ++ rest := by
  induction word generalizing text with
  | nil => simp [dropWord, eq_comm]
  | cons w word ih =>
    cases text with
    | nil => simp [dropWord]
    | cons c text =>
      simp only [dropWord]
      split
      · next same => simp [ih, same]
      · next different => simp [Ne.symm different]

theorem dropEndWord_eq_some_iff {word text rest : List Char} :
    dropEndWord word text = some rest ↔ text = rest ++ word := by
  simp only [dropEndWord, Option.map_eq_some_iff, dropWord_eq_some_iff]
  constructor
  · rintro ⟨back, same, rfl⟩
    rw [← List.reverse_reverse text, same]; simp
  · rintro rfl
    exact ⟨rest.reverse, by simp, by simp⟩

/-- A split at the first occurrence loses nothing. -/
theorem eq_append_of_splitAtFirst {word text before after : List Char}
    (split : splitAtFirst word text = some (before, after)) : text = before ++ word ++ after := by
  induction text generalizing before with
  | nil =>
    simp only [splitAtFirst] at split
    split at split
    · next empty => simp at split; simp [empty, split.1, split.2]
    · simp at split
  | cons c rest ih =>
    simp only [splitAtFirst] at split
    split at split
    · next found =>
      simp only [Option.some.injEq, Prod.mk.injEq] at split
      obtain ⟨rfl, rfl⟩ := split
      simpa using dropWord_eq_some_iff.mp found
    · obtain ⟨⟨b, a⟩, inner, same⟩ := Option.map_eq_some_iff.mp split
      simp only [Prod.mk.injEq] at same
      obtain ⟨rfl, rfl⟩ := same
      rw [ih inner]; simp

end Polyglot.Text
