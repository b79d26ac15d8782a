import Mathlib.Data.List.Forall2

/-!
# Answers

A step that keeps no state answers with a value or with an error. What follows it goes on with the value and is passed
over on an error; what is made of its value or of its error has a value just when the step has one
(`mapError_map_eq_ok_iff`); and a step that is taken for each element of a list has all its values just when each has
one (`mapM_eq_ok_iff`).
-/

namespace Polyglot.Answers

variable {ε ε' α β γ δ : Type}

theorem ok_bind (value : α) (next : α → Except ε β) : Except.ok value >>= next = next value := rfl

theorem error_bind (error : ε) (next : α → Except ε β) :
    (Except.error error : Except ε α) >>= next = .error error := rfl

theorem pure_eq (value : α) : (pure value : Except ε α) = .ok value := rfl

theorem exists_of_isOk {outcome : Except ε α} (good : outcome.isOk = true) : ∃ value, outcome = .ok value := by
  cases outcome with
  | error _ => cases good
  | ok value => exact ⟨value, rfl⟩

theorem exists_of_bind_eq_ok {first : Except ε α} {next : α → Except ε β} {result : β}
    (run : first >>= next = .ok result) : ∃ value, first = .ok value ∧ next value = .ok result := by
  cases first with
  | error _ => cases run
  | ok value => exact ⟨value, rfl, run⟩

/-- Whether two steps succeed one after the other depends on whether each does. -/
theorem isOk_bind_congr {first : Except ε α} {second : Except ε β} {next : α → Except ε γ} {after : β → Except ε δ}
    (same : first.isOk = second.isOk) (later : ∀ value other, (next value).isOk = (after other).isOk) :
    (first >>= next).isOk = (second >>= after).isOk := by
  cases first with
  | error _ =>
    cases second with
    | error _ => rfl
    | ok _ => cases same
  | ok value =>
    cases second with
    | error _ => cases same
    | ok other => exact later value other

theorem map_map (outcome : Except ε α) (f : α → β) (g : β → γ) :
    (outcome.map f).map g = outcome.map fun value => g (f value) := by
  cases outcome <;> rfl

theorem mapError_map (outcome : Except ε α) (f : α → β) (g : ε → ε') :
    (outcome.map f).mapError g = (outcome.mapError g).map f := by
  cases outcome <;> rfl

theorem map_eq_ok_iff {outcome : Except ε α} {f : α → β} {value : β} :
    outcome.map f = .ok value ↔ ∃ made, outcome = .ok made ∧ f made = value := by
  cases outcome <;> simp [Except.map]

theorem mapError_eq_ok_iff {outcome : Except ε α} {g : ε → ε'} {value : α} :
    outcome.mapError g = .ok value ↔ outcome = .ok value := by
  cases outcome <;> simp [Except.mapError]

theorem mapError_map_eq_ok_iff {outcome : Except ε α} {g : ε → ε'} {f : α → β} {value : β} :
    (outcome.mapError g).map f = .ok value ↔ ∃ made, outcome = .ok made ∧ f made = value :=
  map_eq_ok_iff.trans (exists_congr fun _ => and_congr_left fun _ => mapError_eq_ok_iff)

theorem mapM_map (step : α → Except ε β) (f : β → γ) (elements : List α) :
    elements.mapM (fun element => (step element).map f) = (elements.mapM step).map (List.map f) := by
  induction elements with
  | nil => rfl
  | cons head rest ih =>
    rw [List.mapM_cons, List.mapM_cons, ih]
    cases step head with
    | error _ => rfl
    | ok value => cases rest.mapM step <;> rfl

theorem mapM_eq_ok_iff {step : α → Except ε β} {elements : List α} {values : List β} :
    elements.mapM step = .ok values ↔ List.Forall₂ (fun element value => step element = .ok value) elements values := by
  induction elements generalizing values with
  | nil =>
    rw [List.mapM_nil, List.forall₂_nil_left_iff]
    constructor
    · rintro ⟨⟩
      rfl
    · rintro rfl
      rfl
  | cons head rest ih =>
    rw [List.mapM_cons, List.forall₂_cons_left_iff]
    constructor
    · intro run
      obtain ⟨value, here, run⟩ := exists_of_bind_eq_ok run
      obtain ⟨others, later, run⟩ := exists_of_bind_eq_ok run
      cases run
      exact ⟨value, others, here, ih.mp later, rfl⟩
    · rintro ⟨value, others, here, later, rfl⟩
      rw [here, ok_bind, ih.mpr later, ok_bind, pure_eq]

theorem mapM_eq_ok_map {step : α → Except ε β} {value : α → β} {elements : List α}
    (each : ∀ element ∈ elements, step element = .ok (value element)) :
    elements.mapM step = .ok (elements.map value) := by
  rw [mapM_eq_ok_iff, List.forall₂_map_right_iff, List.forall₂_same]
  exact each

end Polyglot.Answers
