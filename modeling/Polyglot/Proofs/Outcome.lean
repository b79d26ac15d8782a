import Mathlib.Data.List.Forall2
import Polyglot.Capabilities

/-!
# Outcomes of steps

How the outcome of steps that follow each other comes from the outcomes of the
steps: they succeed when all do, and fail where the first of them fails. The same for
a step that is repeated over a list, and for steps that read the options of a run.
-/

namespace Polyglot.Outcome

variable {ε σ α β γ : Type}

theorem pure_eq_ok_iff {value result : α} {before after : σ} :
    (pure value : EStateM ε σ α) before = .ok result after ↔ result = value ∧ after = before := by
  constructor
  · intro h; cases h; exact ⟨rfl, rfl⟩
  · rintro ⟨rfl, rfl⟩; rfl

theorem bind_eq_ok_iff {first : EStateM ε σ α} {rest : α → EStateM ε σ β} {before after : σ} {result : β} :
    (first >>= rest) before = .ok result after ↔
      ∃ value middle, first before = .ok value middle ∧ rest value middle = .ok result after := by
  simp only [bind, EStateM.bind]
  cases first before with
  | ok value middle =>
    constructor
    · intro later; exact ⟨value, middle, rfl, later⟩
    · rintro ⟨_, _, same, later⟩; cases same; exact later
  | error fault middle => simp

theorem bind_eq_error_iff {first : EStateM ε σ α} {rest : α → EStateM ε σ β} {before after : σ} {fault : ε} :
    (first >>= rest) before = .error fault after ↔
      first before = .error fault after ∨
        ∃ value middle, first before = .ok value middle ∧ rest value middle = .error fault after := by
  simp only [bind, EStateM.bind]
  cases first before with
  | ok value middle =>
    constructor
    · intro later; exact .inr ⟨value, middle, rfl, later⟩
    · rintro (never | ⟨_, _, same, later⟩)
      · cases never
      · cases same; exact later
  | error other middle => simp

theorem bind_eq_of_ok {first : EStateM ε σ α} {before middle : σ} {value : α}
    (succeeded : first before = .ok value middle) (rest : α → EStateM ε σ β) :
    (first >>= rest) before = rest value middle := by
  simp only [bind, EStateM.bind, succeeded]

theorem bind_eq_of_error {first : EStateM ε σ α} {before after : σ} {fault : ε}
    (failed : first before = .error fault after) (rest : α → EStateM ε σ β) :
    (first >>= rest) before = .error fault after := by
  simp only [bind, EStateM.bind, failed]

/-- A step that is repeated over a list fails at the first element that it fails at,
    on what it made of the elements before. -/
theorem foldlM_eq_error_iff {step : β → α → EStateM ε σ β} {elements : List α} {start : β}
    {before after : σ} {fault : ε} :
    elements.foldlM step start before = .error fault after ↔
      ∃ earlier element later made middle, elements = earlier ++ element :: later ∧
        earlier.foldlM step start before = .ok made middle ∧ step made element middle = .error fault after := by
  -- The first element may fail itself; or it passes, and the failure is among the others.
  induction elements generalizing start before with
  | nil => simp [pure, EStateM.pure]
  | cons head rest ih =>
    rw [List.foldlM_cons, bind_eq_error_iff]
    constructor
    · rintro (failed | ⟨made, middle, succeeded, failed⟩)
      · exact ⟨[], head, rest, start, before, rfl, rfl, failed⟩
      · obtain ⟨earlier, element, later, last, reached, rfl, passed, failed⟩ := ih.mp failed
        refine ⟨head :: earlier, element, later, last, reached, rfl, ?_, failed⟩
        rw [List.foldlM_cons, bind_eq_of_ok succeeded]
        exact passed
    · rintro ⟨earlier, element, later, last, reached, split, passed, failed⟩
      cases earlier with
      | nil =>
        obtain ⟨rfl, rfl⟩ := List.cons.inj split
        obtain ⟨rfl, rfl⟩ := pure_eq_ok_iff.mp passed
        exact .inl failed
      | cons first more =>
        obtain ⟨rfl, rfl⟩ := List.cons.inj split
        rw [List.foldlM_cons, bind_eq_ok_iff] at passed
        obtain ⟨made, middle, succeeded, passed⟩ := passed
        exact .inr ⟨made, middle, succeeded, ih.mpr ⟨more, element, later, last, reached, rfl, passed, failed⟩⟩

/-- A list of results is not had when one element fails, on what the elements before left. -/
theorem mapM_eq_error {step : α → EStateM ε σ β} {earlier : List α} {element : α} {before middle after : σ}
    {made : List β} {fault : ε} (passed : earlier.mapM step before = .ok made middle)
    (failed : step element middle = .error fault after) (later : List α) :
    (earlier ++ element :: later).mapM step before = .error fault after := by
  rw [List.mapM_append, bind_eq_of_ok passed, List.mapM_cons]
  exact bind_eq_of_error (bind_eq_of_error failed _) _

/-- What is made of each element of a list is made by its own step. -/
theorem forall₂_of_mapM_ok {step : α → EStateM ε σ β} {elements : List α} {values : List β}
    {before after : σ} (succeeded : elements.mapM step before = .ok values after) :
    List.Forall₂ (fun element value => ∃ begun last, step element begun = .ok value last) elements values := by
  induction elements generalizing values before after with
  | nil =>
    obtain ⟨rfl, _⟩ := pure_eq_ok_iff.mp succeeded
    exact .nil
  | cons head rest ih =>
    rw [List.mapM_cons] at succeeded
    obtain ⟨value, middle, here, others⟩ := bind_eq_ok_iff.mp succeeded
    obtain ⟨more, last, later, made⟩ := bind_eq_ok_iff.mp others
    obtain ⟨rfl, _⟩ := pure_eq_ok_iff.mp made
    exact .cons ⟨before, middle, here⟩ (ih later)

theorem exists_of_mem_right {related : α → β → Prop} {elements : List α} {values : List β}
    (all : List.Forall₂ related elements values) {value : β} (member : value ∈ values) :
    ∃ element ∈ elements, related element value := by
  induction all with
  | nil => cases member
  | cons here _ ih =>
    rcases List.mem_cons.mp member with rfl | member
    · exact ⟨_, List.mem_cons_self, here⟩
    · obtain ⟨element, among, held⟩ := ih member
      exact ⟨element, List.mem_cons_of_mem _ among, held⟩

theorem exists_getElem?_of_forall₂ {related : α → β → Prop} {elements : List α} {values : List β}
    (all : List.Forall₂ related elements values) {place : Nat} {element : α} (here : elements[place]? = some element) :
    ∃ value, values[place]? = some value ∧ related element value := by
  induction all generalizing place with
  | nil => cases here
  | cons first _ ih =>
    cases place with
    | zero =>
      cases here
      exact ⟨_, rfl, first⟩
    | succ place => exact ih here

/-! ## Steps whose outcome no state decides -/

/-- What a step gives, without the state after it. -/
def answer : EStateM.Result ε σ α → Except ε α
  | .ok value _ => .ok value
  | .error fault _ => .error fault

theorem answer_eq_ok_iff {result : EStateM.Result ε σ α} {value : α} :
    answer result = .ok value ↔ ∃ after, result = .ok value after := by
  cases result <;> simp [answer]

theorem answer_eq_error_iff {result : EStateM.Result ε σ α} {fault : ε} :
    answer result = .error fault ↔ ∃ after, result = .error fault after := by
  cases result <;> simp [answer]

theorem exists_ok_of_isOk {result : EStateM.Result ε σ α} (good : (answer result).isOk = true) :
    ∃ value after, result = .ok value after := by
  cases result with
  | ok value after => exact ⟨value, after, rfl⟩
  | error => cases good

/-- The step gives this from whatever state it begins in. -/
def Settles (step : EStateM ε σ α) (outcome : Except ε α) : Prop := ∀ before, answer (step before) = outcome

theorem settles_pure (value : α) : Settles (pure value : EStateM ε σ α) (.ok value) := fun _ => rfl

theorem settles_throw (fault : ε) : Settles (throw fault : EStateM ε σ α) (.error fault) := fun _ => rfl

theorem answer_bind {first : EStateM ε σ α} {rest : α → EStateM ε σ β} {outcome : Except ε α}
    {more : α → Except ε β} {before : σ} (begun : answer (first before) = outcome)
    (others : ∀ value after, first before = .ok value after → answer (rest value after) = more value) :
    answer ((first >>= rest) before) = outcome >>= more := by
  subst begun
  cases made : first before with
  | ok value after =>
    rw [bind_eq_of_ok made]
    exact others value after made
  | error fault after =>
    rw [bind_eq_of_error made]
    rfl

theorem Settles.bind {first : EStateM ε σ α} {rest : α → EStateM ε σ β} {outcome : Except ε α}
    {more : α → Except ε β} (settles : Settles first outcome) (others : ∀ value, Settles (rest value) (more value)) :
    Settles (first >>= rest) (outcome >>= more) :=
  fun before => answer_bind (settles before) fun value after _ => others value after

theorem Settles.map {first : EStateM ε σ α} {outcome : Except ε α} (settles : Settles first outcome) (f : α → β) :
    Settles (first >>= fun value => pure (f value)) (outcome.map f) := by
  have mapped := settles.bind fun value => settles_pure (f value)
  cases outcome <;> exact mapped

theorem Settles.mapM {step : α → EStateM ε σ β} {outcome : α → Except ε β}
    (each : ∀ element, Settles (step element) (outcome element)) (elements : List α) :
    Settles (elements.mapM step) (elements.mapM outcome) := by
  induction elements with
  | nil => exact settles_pure []
  | cons head rest ih =>
    rw [List.mapM_cons, List.mapM_cons]
    exact (each head).bind fun _ => ih.bind fun _ => settles_pure _

/-! ## What a step ends in -/

variable {ρ : Type}

/-- The state after a step, whether it succeeded or failed. -/
def ending : EStateM.Result ε σ α → σ
  | .ok _ after => after
  | .error _ after => after

/-- What holds of the state holds of it after the step, also where the step fails. -/
def Preserves (holds : σ → Prop) (step : EStateM ε σ α) : Prop := ∀ before, holds before → holds (ending (step before))

theorem Preserves.of_ok {holds : σ → Prop} {step : EStateM ε σ α} (preserves : Preserves holds step)
    {before after : σ} {value : α} (succeeded : step before = .ok value after) (held : holds before) :
    holds after := by
  have kept := preserves before held
  rwa [succeeded] at kept

theorem Preserves.of_error {holds : σ → Prop} {step : EStateM ε σ α} (preserves : Preserves holds step)
    {before after : σ} {fault : ε} (failed : step before = .error fault after) (held : holds before) :
    holds after := by
  have kept := preserves before held
  rwa [failed] at kept

theorem preserves_pure {holds : σ → Prop} (value : α) : Preserves holds (pure value : EStateM ε σ α) :=
  fun _ held => held

theorem Preserves.bind {holds : σ → Prop} {first : EStateM ε σ α} {rest : α → EStateM ε σ β}
    (preserves : Preserves holds first) (others : ∀ value, Preserves holds (rest value)) :
    Preserves holds (first >>= rest) := by
  intro before held
  cases outcome : first before with
  | ok value middle =>
    rw [bind_eq_of_ok outcome]
    exact others value middle (preserves.of_ok outcome held)
  | error fault after =>
    rw [bind_eq_of_error outcome]
    exact preserves.of_error outcome held

theorem Preserves.foldlM {holds : σ → Prop} {step : β → α → EStateM ε σ β} {elements : List α}
    (preserves : ∀ element ∈ elements, ∀ made, Preserves holds (step made element)) (start : β) :
    Preserves holds (elements.foldlM step start) := by
  induction elements generalizing start with
  | nil => exact preserves_pure start
  | cons head rest ih =>
    rw [List.foldlM_cons]
    have others : ∀ element ∈ rest, ∀ made, Preserves holds (step made element) :=
      fun element member => preserves element (List.mem_cons_of_mem head member)
    exact (preserves head List.mem_cons_self start).bind (ih others)

/-- The step leaves what `view` shows of the state as it is, also where it fails. -/
def Keeps (view : σ → ρ) (step : EStateM ε σ α) : Prop := ∀ before, view (ending (step before)) = view before

theorem keeps_iff_preserves {view : σ → ρ} {step : EStateM ε σ α} :
    Keeps view step ↔ ∀ shown, Preserves (fun state => view state = shown) step := by
  constructor
  · intro keeps shown before held
    rw [keeps before]
    exact held
  · intro preserves before
    exact preserves _ before rfl

section
variable {view : σ → ρ}

theorem Keeps.of_ok {step : EStateM ε σ α} (keeps : Keeps view step) {before after : σ} {value : α}
    (succeeded : step before = .ok value after) : view after = view before :=
  (keeps_iff_preserves.mp keeps _).of_ok succeeded rfl

theorem Keeps.of_error {step : EStateM ε σ α} (keeps : Keeps view step) {before after : σ} {fault : ε}
    (failed : step before = .error fault after) : view after = view before :=
  (keeps_iff_preserves.mp keeps _).of_error failed rfl

theorem keeps_pure (value : α) : Keeps view (pure value : EStateM ε σ α) := fun _ => rfl

theorem Keeps.bind {first : EStateM ε σ α} {rest : α → EStateM ε σ β} (keeps : Keeps view first)
    (others : ∀ value, Keeps view (rest value)) : Keeps view (first >>= rest) :=
  keeps_iff_preserves.mpr fun shown =>
    (keeps_iff_preserves.mp keeps shown).bind fun value => keeps_iff_preserves.mp (others value) shown

theorem Keeps.foldlM {step : β → α → EStateM ε σ β} {elements : List α}
    (keeps : ∀ element ∈ elements, ∀ made, Keeps view (step made element)) (start : β) :
    Keeps view (elements.foldlM step start) :=
  keeps_iff_preserves.mpr fun shown =>
    .foldlM (fun element member made => keeps_iff_preserves.mp (keeps element member made) shown) start

theorem Keeps.mapM {step : α → EStateM ε σ β} (keeps : ∀ element, Keeps view (step element)) (elements : List α) :
    Keeps view (elements.mapM step) := by
  induction elements with
  | nil => exact keeps_pure []
  | cons head rest ih =>
    rw [List.mapM_cons]
    exact (keeps head).bind fun _ => ih.bind fun _ => keeps_pure _

end

/-! ## Steps on states that are alike -/

variable {τ : Type}

/-- Results of the same value or the same fault, with states that are alike. -/
inductive Agree (alike : σ → τ → Prop) : EStateM.Result ε σ α → EStateM.Result ε τ α → Prop
  | ok {value : α} {after : σ} {last : τ} (states : alike after last) : Agree alike (.ok value after) (.ok value last)
  | error {fault : ε} {after : σ} {last : τ} (states : alike after last) :
      Agree alike (.error fault after) (.error fault last)

/-- Steps that agree wherever they begin in states that are alike. -/
def Matches (alike : σ → τ → Prop) (step : EStateM ε σ α) (other : EStateM ε τ α) : Prop :=
  ∀ before begun, alike before begun → Agree alike (step before) (other begun)

section
variable {alike : σ → τ → Prop}

theorem matches_pure (value : α) : Matches alike (pure value : EStateM ε σ α) (pure value : EStateM ε τ α) :=
  fun _ _ states => .ok states

theorem matches_throw (fault : ε) : Matches alike (throw fault : EStateM ε σ α) (throw fault : EStateM ε τ α) :=
  fun _ _ states => .error states

theorem answer_eq_of_agree {result : EStateM.Result ε σ α} {other : EStateM.Result ε τ α}
    (agree : Agree alike result other) : answer result = answer other := by
  cases agree <;> rfl

/-- Results of related values, or of the same fault, with states that are alike. -/
inductive Akin {δ : Type} (alike : σ → τ → Prop) (related : α → δ → Prop) :
    EStateM.Result ε σ α → EStateM.Result ε τ δ → Prop
  | ok {value : α} {other : δ} {after : σ} {last : τ} (values : related value other) (states : alike after last) :
      Akin alike related (.ok value after) (.ok other last)
  | error {fault : ε} {after : σ} {last : τ} (states : alike after last) :
      Akin alike related (.error fault after) (.error fault last)

theorem agree_iff_akin {result : EStateM.Result ε σ α} {other : EStateM.Result ε τ α} :
    Agree alike result other ↔ Akin alike Eq result other := by
  constructor
  · rintro (states | states)
    · exact .ok rfl states
    · exact .error states
  · intro akin
    cases akin with
    | ok values states => cases values; exact .ok states
    | error states => exact .error states

/-- Where the first steps end akin, it is left to show that the others do. -/
theorem Akin.bind {δ η : Type} {related : α → δ → Prop} {target : β → η → Prop} {first : EStateM ε σ α}
    {begin : EStateM ε τ δ} {rest : α → EStateM ε σ β} {more : δ → EStateM ε τ η} {before : σ} {begun : τ}
    (akin : Akin alike related (first before) (begin begun))
    (others : ∀ value other after last, first before = .ok value after → related value other → alike after last →
      Akin alike target (rest value after) (more other last)) :
    Akin alike target ((first >>= rest) before) ((begin >>= more) begun) := by
  simp only [Bind.bind, EStateM.bind]
  generalize first before = made at akin others ⊢
  generalize begin begun = matched at akin ⊢
  cases akin with
  | ok values middle => exact others _ _ _ _ rfl values middle
  | error after => exact .error after

theorem Matches.bind {first : EStateM ε σ α} {begin : EStateM ε τ α} {rest : α → EStateM ε σ β}
    {more : α → EStateM ε τ β} (same : Matches alike first begin)
    (others : ∀ value, Matches alike (rest value) (more value)) :
    Matches alike (first >>= rest) (begin >>= more) := by
  intro before begun states
  refine agree_iff_akin.mpr ((agree_iff_akin.mp (same before begun states)).bind ?_)
  rintro value _ after last _ rfl middle
  exact agree_iff_akin.mp (others value after last middle)

theorem Akin.mapM {δ : Type} {related : β → δ → Prop} {step : α → EStateM ε σ β} {other : α → EStateM ε τ δ}
    {elements : List α}
    (same : ∀ element ∈ elements, ∀ before begun, alike before begun →
      Akin alike related (step element before) (other element begun))
    {before : σ} {begun : τ} (states : alike before begun) :
    Akin alike (List.Forall₂ related) (elements.mapM step before) (elements.mapM other begun) := by
  induction elements generalizing before begun with
  | nil => exact .ok .nil states
  | cons head rest ih =>
    rw [List.mapM_cons, List.mapM_cons]
    refine (same head List.mem_cons_self _ _ states).bind ?_
    rintro value twin middle between _ values states
    refine (ih (fun element member => same element (List.mem_cons_of_mem head member)) states).bind ?_
    rintro more others after last _ rest states
    exact .ok (.cons values rest) states

theorem Matches.mapM {step : α → EStateM ε σ β} {other : α → EStateM ε τ β} {elements : List α}
    (same : ∀ element ∈ elements, Matches alike (step element) (other element)) :
    Matches alike (elements.mapM step) (elements.mapM other) := by
  intro before begun states
  have akin := Akin.mapM (fun element member _ _ states => agree_iff_akin.mp (same element member _ _ states)) states
  rw [List.forall₂_eq_eq_eq] at akin
  exact agree_iff_akin.mpr akin

theorem Matches.foldlM {step : β → α → EStateM ε σ β} {other : β → α → EStateM ε τ β} {elements : List α}
    (same : ∀ element ∈ elements, ∀ made, Matches alike (step made element) (other made element)) (start : β) :
    Matches alike (elements.foldlM step start) (elements.foldlM other start) := by
  induction elements generalizing start with
  | nil => exact matches_pure start
  | cons head rest ih =>
    rw [List.foldlM_cons, List.foldlM_cons]
    have others : ∀ element ∈ rest, ∀ made, Matches alike (step made element) (other made element) :=
      fun element member => same element (List.mem_cons_of_mem head member)
    exact (same head List.mem_cons_self start).bind (ih others)

end

theorem matches_outcome {worlds : World σ → World τ → Prop} (outcome : Except Fault α) :
    Matches worlds (Action.ofExcept outcome) (Action.ofExcept outcome) := by
  cases outcome with
  | ok value => exact matches_pure value
  | error fault => exact matches_throw fault

/-! ## Runs -/

variable {κ : Kit}

theorem ofAction_eq_ok_iff {action : Options κ → Action κ.State α} {before after : Invocation κ} {value : α} :
    Run.ofAction action before = .ok value after ↔
      ∃ world, action before.options before.world = .ok value world ∧ after = { before with world } := by
  unfold Run.ofAction
  cases action before.options before.world with
  | ok other world =>
    constructor
    · intro same; cases same; exact ⟨world, rfl, rfl⟩
    · rintro ⟨_, same, rfl⟩; cases same; rfl
  | error fault world => simp

theorem ofAction_eq_error_iff {action : Options κ → Action κ.State α} {before after : Invocation κ}
    {fault : Fault} :
    Run.ofAction action before = .error fault after ↔
      ∃ world, action before.options before.world = .error fault world ∧ after = { before with world } := by
  unfold Run.ofAction
  cases action before.options before.world with
  | ok value world => simp
  | error other world =>
    constructor
    · intro same; cases same; exact ⟨world, rfl, rfl⟩
    · rintro ⟨_, same, rfl⟩; cases same; rfl

/-- Steps that read the options end akin when their actions do. -/
theorem Akin.ofAction {δ : Type} {worlds : World κ.State → World κ.State → Prop} {related : α → δ → Prop}
    {alike : Invocation κ → Invocation κ → Prop} {action : Options κ → Action κ.State α}
    {other : Options κ → Action κ.State δ} {before begun : Invocation κ}
    (akin : Akin worlds related (action before.options before.world) (other begun.options begun.world))
    (states : ∀ world last, worlds world last → alike { before with world } { begun with world := last }) :
    Akin alike related (Run.ofAction action before) (Run.ofAction other begun) := by
  unfold Run.ofAction
  generalize action before.options before.world = made at akin ⊢
  generalize other begun.options begun.world = matched at akin ⊢
  cases akin with
  | ok values after => exact .ok values (states _ _ after)
  | error after => exact .error (states _ _ after)

end Polyglot.Outcome
