import Polyglot.Proofs.Courses

/-!
# Parses side by side

Two parses go through the same stages as long as what they resolve is alike and each of their
capabilities, called on both sides, ends alike. Reports and the commit do not part them where
alikeness asks for neither what is reported nor for other texts (`Lenient`), and neither do hooks
that take part on one side only and declare no stage (`Lenient.proceed`).
-/

namespace Polyglot.Pipeline

open Outcome Registry

variable {κ : Kit} {σ α : Type}

/-! ## Resolving -/

/-- Gives a capability and reports it. -/
def give (held : Option (Deferred σ α)) (lost : Fault) (event : Deferred σ α → α → Event) : Action σ α :=
  match held with
  | none => throw lost
  | some deferred => do
    let value ← deferred.resolve
    Action.report (event deferred value)
    pure value

theorem resolveParser_eq_give (registry : Registry κ) (profile : Profile κ) (name : String) :
    registry.resolveParser profile name = (do
      let plugin ← Action.ofExcept (registry.findParser name)
      give (plugin.parser? name) (lostParser plugin.name name) fun deferred parser =>
        .resolvedParser name plugin.name (profile.treeFormat parser) deferred.isLazy) := by
  refine bind_congr fun plugin => ?_
  cases plugin.parser? name <;> rfl

theorem resolvePrinter_eq_give (registry : Registry κ) (treeFormat : String) :
    registry.resolvePrinter treeFormat = (do
      let plugin ← Action.ofExcept (registry.findPrinter treeFormat)
      give (plugin.printer? treeFormat) (lostPrinter plugin.name treeFormat) fun deferred _ =>
        .resolvedPrinter treeFormat plugin.name deferred.isLazy) := by
  refine bind_congr fun plugin => ?_
  cases plugin.printer? treeFormat <;> rfl

/-- Capabilities that resolve alike are given alike, whatever is reported of them. -/
theorem matches_give {alike : World σ → World σ → Prop}
    (reports : ∀ event other, Matches alike (Action.report event) (Action.report other))
    {held other : Option (Deferred σ α)}
    (same : Option.Rel (fun first second => Matches alike first.resolve second.resolve) held other) (lost : Fault)
    (event more : Deferred σ α → α → Event) : Matches alike (give held lost event) (give other lost more) := by
  cases same with
  | none => exact matches_throw lost
  | some resolve => exact resolve.bind fun value => (reports _ _).bind fun _ => matches_pure value

/-- The hooks of two plugins are had alike when both have none for the tree format, or some that resolve alike. -/
theorem matches_ownHooks {alike : World κ.State → World κ.State → Prop} {plugin other : Plugin κ} {treeFormat : String}
    (same : Option.Rel (fun first second => Matches alike first.resolve second.resolve) (plugin.hooks? treeFormat)
      (other.hooks? treeFormat)) : Matches alike (ownHooks treeFormat plugin) (ownHooks treeFormat other) := by
  unfold ownHooks
  generalize plugin.hooks? treeFormat = deferred at same ⊢
  generalize other.hooks? treeFormat = again at same ⊢
  cases same with
  | none => exact matches_pure []
  | some resolve => exact resolve

/-! ## The calls -/

/-- A relation of invocations that stay related whatever is reported, and when the same text is
    committed in both. -/
structure Lenient (alike : Invocation κ → Invocation κ → Prop) : Prop where
  report (event other : Event) : Matches alike (Run.report event) (Run.report other)
  commit (text : String) : Matches alike (commit text) (commit text)

namespace Lenient

variable {alike : Invocation κ → Invocation κ → Prop} {capabilities : Capabilities κ}

theorem stepBefore (lenient : Lenient alike) {hook : κ.Hook} {text : String}
    (call : Matches alike (capabilities.beforeParse hook text) (capabilities.beforeParse hook text)) :
    Matches alike (Dispatch.stepBefore capabilities text hook) (Dispatch.stepBefore capabilities text hook) :=
  (lenient.report _ _).bind fun _ => call

theorem stepAfter (lenient : Lenient alike) {hook : κ.Hook} {tree : Tree}
    (call : Matches alike (capabilities.afterParse hook tree) (capabilities.afterParse hook tree)) :
    Matches alike (Dispatch.stepAfter capabilities tree hook) (Dispatch.stepAfter capabilities tree hook) := by
  refine (lenient.report _ _).bind fun _ => call.bind fun edit => ?_
  cases edit.replacement with
  | none => exact matches_pure _
  | some replacement => exact (lenient.report _ _).bind fun _ => matches_pure _

section
variable {hooks others : List κ.Hook}

theorem beforeParse (lenient : Lenient alike)
    (declared : Dispatch.declaring capabilities.toProfile .beforeParse others =
      Dispatch.declaring capabilities.toProfile .beforeParse hooks)
    (calls : ∀ hook ∈ hooks, ∀ text,
      Matches alike (capabilities.beforeParse hook text) (capabilities.beforeParse hook text)) (text : String) :
    Matches alike (Dispatch.beforeParse capabilities hooks text) (Dispatch.beforeParse capabilities others text) := by
  unfold Dispatch.beforeParse
  rw [declared]
  refine .foldlM (fun hook member made => lenient.stepBefore (calls hook ?_ made)) text
  exact (List.mem_filter.mp member).1

theorem afterParse (lenient : Lenient alike)
    (declared : Dispatch.declaring capabilities.toProfile .afterParse others =
      Dispatch.declaring capabilities.toProfile .afterParse hooks)
    (calls : ∀ hook ∈ hooks, ∀ tree,
      Matches alike (capabilities.afterParse hook tree) (capabilities.afterParse hook tree)) (tree : Tree) :
    Matches alike (Dispatch.afterParse capabilities hooks tree) (Dispatch.afterParse capabilities others tree) := by
  unfold Dispatch.afterParse
  rw [declared]
  refine .foldlM (fun hook member made => lenient.stepAfter (calls hook ?_ made)) tree
  exact (List.mem_filter.mp member).1

end

theorem runParser (lenient : Lenient alike) {parser : κ.Parser} {text : String}
    (call : Matches alike (Run.ofAction (capabilities.parse parser text))
      (Run.ofAction (capabilities.parse parser text))) (pipeline : Pipeline) (raw : String) :
    Matches alike (pipeline.runParser capabilities parser raw text)
      (pipeline.runParser capabilities parser raw text) := by
  intro before begun invocations
  have agree := call before begun invocations
  unfold Pipeline.runParser
  generalize Run.ofAction (capabilities.parse parser text) before = made at agree ⊢
  generalize Run.ofAction (capabilities.parse parser text) begun = matched at agree ⊢
  cases agree with
  | ok after => exact .ok after
  | @error fault _ _ after =>
    -- The failure is put on record as any other event is.
    let failure : Event := .failed (capabilities.treeFormat parser) fault.kind fault.location.isSome
    have reported := lenient.report failure failure _ _ after
    rw [report_eq, report_eq] at reported
    cases reported with
    | ok states => exact .error states

/-- From the first call on, two parses of one parser stay abreast when the same of their hooks are to be
    called and each call ends alike on both sides. -/
theorem proceed (lenient : Lenient alike) {parser : κ.Parser} {hooks others : List κ.Hook}
    (declared : ∀ stage, Dispatch.declaring capabilities.toProfile stage others =
      Dispatch.declaring capabilities.toProfile stage hooks)
    (parses : ∀ text, Matches alike (Run.ofAction (capabilities.parse parser text))
      (Run.ofAction (capabilities.parse parser text)))
    (before : ∀ hook ∈ hooks, ∀ text,
      Matches alike (capabilities.beforeParse hook text) (capabilities.beforeParse hook text))
    (after : ∀ hook ∈ hooks, ∀ tree,
      Matches alike (capabilities.afterParse hook tree) (capabilities.afterParse hook tree))
    (pipeline : Pipeline) (raw text : String) :
    Matches alike (pipeline.proceed capabilities raw ⟨parser, hooks⟩ text)
      (pipeline.proceed capabilities raw ⟨parser, others⟩ text) := by
  refine (lenient.beforeParse (declared _) before text).bind fun made => (lenient.commit made).bind fun _ => ?_
  refine (lenient.runParser (parses made) pipeline raw).bind fun tree => ?_
  refine (lenient.afterParse (declared _) after tree).bind fun last => ?_
  exact (lenient.report _ _).bind fun _ => matches_pure _

end Lenient

end Polyglot.Pipeline
