import Polyglot.Pipeline
import Polyglot.Proofs.Outcome

/-!
# The stages of a parse

A parse is three stages: what it does before its parser runs, the parser, and what it
does afterwards. Only the second one puts frames on failures; a failure of the two
others is the failure of the parse as it is.
-/

namespace Polyglot

/-- The invocation with one more event on record. -/
def Invocation.reported {κ : Kit} (invocation : Invocation κ) (event : Event) : Invocation κ :=
  { invocation with world := invocation.world.report [event] }

namespace Pipeline

open Outcome

variable {κ : Kit}

theorem report_eq (event : Event) (before : Invocation κ) :
    Run.report event before = .ok () (before.reported event) := rfl

/-- What stands when the parser of a parse is about to run. -/
structure Ready (κ : Kit) where
  parser : κ.Parser
  /-- The hooks that take part. -/
  hooks : List κ.Hook
  text : String

/-- Resolves the hooks of a parser's tree format and selects those that take part. -/
def gather (profile : Profile κ) (parser : κ.Parser) : Run κ (List κ.Hook) := do
  let resolved ← Run.ofAction fun options => options.registry.resolveHooks (profile.treeFormat parser)
  Run.ofAction fun options => Dispatch.select profile options.context resolved

/-- What a parse does before its parser runs. -/
def approach (capabilities : Capabilities κ) (raw : String) : Run κ (Ready κ) := do
  let parser ← enter capabilities.toProfile
  let hooks ← gather capabilities.toProfile parser
  let preprocessed ← Run.ofAction (capabilities.preprocess parser raw)
  let text ← Dispatch.beforeParse capabilities hooks preprocessed
  commit text
  pure ⟨parser, hooks, text⟩

/-- What a parse does with the tree of its parser. -/
def conclude (capabilities : Capabilities κ) (ready : Ready κ) (tree : Tree) : Run κ Parsed := do
  let tree ← Dispatch.afterParse capabilities ready.hooks tree
  Run.report (.complete (capabilities.treeFormat ready.parser) ready.hooks.length)
  pure ⟨ready.text, tree⟩

theorem parse_eq (pipeline : Pipeline) (capabilities : Capabilities κ) (raw : String) :
    pipeline.parse capabilities raw = (do
      let ready ← approach capabilities raw
      let tree ← pipeline.runParser capabilities ready.parser raw ready.text
      conclude capabilities ready tree) := by
  simp only [parse, run, approach, gather, conclude, bind_assoc, pure_bind]

theorem format_eq (pipeline : Pipeline) (capabilities : Capabilities κ) (raw : String) :
    pipeline.format capabilities raw = (do
      let ready ← approach capabilities raw
      let tree ← pipeline.runParser capabilities ready.parser raw ready.text
      let parsed ← conclude capabilities ready tree
      Run.ofAction (printOn capabilities (capabilities.treeFormat ready.parser) parsed.tree)) := by
  simp only [format, run, approach, gather, conclude, bind_assoc, pure_bind]

/-! ## The stages one by one -/

/-- The world in which the parser of a parse is resolved: the parse is on record. -/
def entered (before : Invocation κ) : World κ.State := before.world.report [.entered before.options.context]

theorem enter_eq (profile : Profile κ) (before : Invocation κ) :
    enter profile before = Run.ofAction
      (fun options => options.registry.resolveParser profile options.context.parser)
      { before with world := entered before } := rfl

theorem enter_eq_ok_iff {profile : Profile κ} {before after : Invocation κ} {parser : κ.Parser} :
    enter profile before = .ok parser after ↔
      ∃ world, before.options.registry.resolveParser profile before.options.context.parser (entered before) =
          .ok parser world ∧ after = { before with world } := by
  rw [enter_eq, ofAction_eq_ok_iff]

theorem enter_eq_error_iff {profile : Profile κ} {before after : Invocation κ} {fault : Fault} :
    enter profile before = .error fault after ↔
      ∃ world, before.options.registry.resolveParser profile before.options.context.parser (entered before) =
          .error fault world ∧ after = { before with world } := by
  rw [enter_eq, ofAction_eq_error_iff]

theorem gather_eq_ok_iff {profile : Profile κ} {parser : κ.Parser} {before after : Invocation κ}
    {hooks : List κ.Hook} :
    gather profile parser before = .ok hooks after ↔
      ∃ resolved world,
        before.options.registry.resolveHooks (profile.treeFormat parser) before.world = .ok resolved world ∧
        hooks = Dispatch.inScope profile before.options.context resolved ∧
        after = { before with
          world := world.report (Dispatch.selectionEvents profile before.options.context resolved) } := by
  unfold gather
  simp only [bind_eq_ok_iff, ofAction_eq_ok_iff]
  constructor
  · rintro ⟨resolved, _, ⟨world, succeeded, rfl⟩, _, selected, rfl⟩
    cases selected
    exact ⟨resolved, world, succeeded, rfl, rfl⟩
  · rintro ⟨resolved, world, succeeded, rfl, rfl⟩
    exact ⟨resolved, _, ⟨world, succeeded, rfl⟩, _, rfl, rfl⟩

theorem gather_eq_error_iff {profile : Profile κ} {parser : κ.Parser} {before after : Invocation κ} {fault : Fault} :
    gather profile parser before = .error fault after ↔
      ∃ world, before.options.registry.resolveHooks (profile.treeFormat parser) before.world = .error fault world ∧
        after = { before with world } := by
  unfold gather
  simp only [bind_eq_error_iff, ofAction_eq_error_iff]
  constructor
  · rintro (failed | ⟨_, _, _, _, never, _⟩)
    · exact failed
    · cases never
  · exact .inl

theorem runParser_eq_ok_iff {pipeline : Pipeline} {capabilities : Capabilities κ} {parser : κ.Parser}
    {raw text : String} {before after : Invocation κ} {tree : Tree} :
    pipeline.runParser capabilities parser raw text before = .ok tree after ↔
      ∃ world, capabilities.parse parser text before.options before.world = .ok tree world ∧
        after = { before with world } := by
  rw [← ofAction_eq_ok_iff]
  unfold runParser
  cases Run.ofAction (capabilities.parse parser text) before <;> simp

/-- The failure of a parser leaves with a frame of the raw text. -/
theorem runParser_eq_error {capabilities : Capabilities κ} {parser : κ.Parser} {text : String}
    {before : Invocation κ} {fault : Fault} {world : World κ.State}
    (failed : capabilities.parse parser text before.options before.world = .error fault world)
    (pipeline : Pipeline) (raw : String) :
    pipeline.runParser capabilities parser raw text before =
      .error (fault.framed pipeline.frame raw) { before with
        world := world.report [.failed (capabilities.treeFormat parser) fault.kind fault.location.isSome] } := by
  have stepFailed := ofAction_eq_error_iff.mpr ⟨world, failed, rfl⟩
  simp only [runParser, stepFailed]

theorem approach_eq_ok_iff {capabilities : Capabilities κ} {raw : String} {before reached : Invocation κ}
    {ready : Ready κ} :
    approach capabilities raw before = .ok ready reached ↔
      ∃ begun gathered preprocessed world handed,
        enter capabilities.toProfile before = .ok ready.parser begun ∧
        gather capabilities.toProfile ready.parser begun = .ok ready.hooks gathered ∧
        capabilities.preprocess ready.parser raw gathered.options gathered.world = .ok preprocessed world ∧
        Dispatch.beforeParse capabilities ready.hooks preprocessed { gathered with world } = .ok ready.text handed ∧
        reached = { handed with options := { handed.options with committed := some ready.text } } := by
  unfold approach
  simp only [bind_eq_ok_iff, ofAction_eq_ok_iff, pure_eq_ok_iff]
  constructor
  · rintro ⟨parser, begun, enters, hooks, gathered, gathers, preprocessed, _, ⟨world, preprocesses, rfl⟩,
      text, handed, stage, _, _, commits, rfl, rfl⟩
    cases commits
    exact ⟨begun, gathered, preprocessed, world, handed, enters, gathers, preprocesses, stage, rfl⟩
  · rintro ⟨begun, gathered, preprocessed, world, handed, enters, gathers, preprocesses, stage, rfl⟩
    exact ⟨ready.parser, begun, enters, ready.hooks, gathered, gathers, preprocessed, _,
      ⟨world, preprocesses, rfl⟩, ready.text, handed, stage, _, _, rfl, rfl, rfl⟩

theorem conclude_eq_ok_iff {capabilities : Capabilities κ} {ready : Ready κ} {tree : Tree}
    {before after : Invocation κ} {parsed : Parsed} :
    conclude capabilities ready tree before = .ok parsed after ↔
      ∃ last, Dispatch.afterParse capabilities ready.hooks tree before = .ok parsed.tree last ∧
        parsed.text = ready.text ∧
        after = last.reported (.complete (capabilities.treeFormat ready.parser) ready.hooks.length) := by
  unfold conclude
  simp only [bind_eq_ok_iff, pure_eq_ok_iff]
  constructor
  · rintro ⟨made, last, stage, _, _, reports, rfl, rfl⟩
    cases reports
    exact ⟨last, stage, rfl, rfl⟩
  · rintro ⟨last, stage, same, rfl⟩
    refine ⟨parsed.tree, last, stage, _, _, rfl, ?_, rfl⟩
    rw [← same]

/-! ## Failures of a parse -/

theorem approach_eq_error_of_enter {capabilities : Capabilities κ} {raw : String} {before after : Invocation κ}
    {fault : Fault} (failed : enter capabilities.toProfile before = .error fault after) :
    approach capabilities raw before = .error fault after :=
  bind_eq_of_error failed _

theorem approach_eq_error_of_gather {capabilities : Capabilities κ} {raw : String}
    {before begun after : Invocation κ} {parser : κ.Parser} {fault : Fault}
    (enters : enter capabilities.toProfile before = .ok parser begun)
    (failed : gather capabilities.toProfile parser begun = .error fault after) :
    approach capabilities raw before = .error fault after := by
  rw [approach, bind_eq_of_ok enters]
  exact bind_eq_of_error failed _

theorem approach_eq_error_of_preprocess {capabilities : Capabilities κ} {raw : String}
    {before begun gathered : Invocation κ} {parser : κ.Parser} {hooks : List κ.Hook} {fault : Fault}
    {world : World κ.State} (enters : enter capabilities.toProfile before = .ok parser begun)
    (gathers : gather capabilities.toProfile parser begun = .ok hooks gathered)
    (failed : capabilities.preprocess parser raw gathered.options gathered.world = .error fault world) :
    approach capabilities raw before = .error fault { gathered with world } := by
  have stageFailed := ofAction_eq_error_iff.mpr ⟨world, failed, rfl⟩
  rw [approach, bind_eq_of_ok enters, bind_eq_of_ok gathers]
  exact bind_eq_of_error stageFailed _

theorem approach_eq_error_of_beforeParse {capabilities : Capabilities κ} {raw preprocessed : String}
    {before begun gathered after : Invocation κ} {parser : κ.Parser} {hooks : List κ.Hook} {fault : Fault}
    {world : World κ.State} (enters : enter capabilities.toProfile before = .ok parser begun)
    (gathers : gather capabilities.toProfile parser begun = .ok hooks gathered)
    (preprocesses : capabilities.preprocess parser raw gathered.options gathered.world = .ok preprocessed world)
    (failed : Dispatch.beforeParse capabilities hooks preprocessed { gathered with world } = .error fault after) :
    approach capabilities raw before = .error fault after := by
  have stagePassed := ofAction_eq_ok_iff.mpr ⟨world, preprocesses, rfl⟩
  rw [approach, bind_eq_of_ok enters, bind_eq_of_ok gathers, bind_eq_of_ok stagePassed]
  exact bind_eq_of_error failed _

theorem parse_eq_error_of_approach {capabilities : Capabilities κ} {raw : String} {before after : Invocation κ}
    {fault : Fault} (failed : approach capabilities raw before = .error fault after) (pipeline : Pipeline) :
    pipeline.parse capabilities raw before = .error fault after := by
  rw [parse_eq]
  exact bind_eq_of_error failed _

theorem parse_eq_error_of_runParser {pipeline : Pipeline} {capabilities : Capabilities κ} {raw : String}
    {before reached after : Invocation κ} {ready : Ready κ} {fault : Fault}
    (arrived : approach capabilities raw before = .ok ready reached)
    (failed : pipeline.runParser capabilities ready.parser raw ready.text reached = .error fault after) :
    pipeline.parse capabilities raw before = .error fault after := by
  rw [parse_eq, bind_eq_of_ok arrived]
  exact bind_eq_of_error failed _

theorem parse_eq_error_of_conclude {pipeline : Pipeline} {capabilities : Capabilities κ} {raw : String}
    {before reached parsed after : Invocation κ} {ready : Ready κ} {tree : Tree} {fault : Fault}
    (arrived : approach capabilities raw before = .ok ready reached)
    (succeeded : pipeline.runParser capabilities ready.parser raw ready.text reached = .ok tree parsed)
    (failed : conclude capabilities ready tree parsed = .error fault after) :
    pipeline.parse capabilities raw before = .error fault after := by
  rw [parse_eq, bind_eq_of_ok arrived, bind_eq_of_ok succeeded]
  exact failed

/-- Printing comes after the parse and does not mend its failure. -/
theorem format_eq_error_of_parse {pipeline : Pipeline} {capabilities : Capabilities κ} {raw : String}
    {before after : Invocation κ} {fault : Fault}
    (failed : pipeline.parse capabilities raw before = .error fault after) :
    pipeline.format capabilities raw before = .error fault after := by
  rw [parse_eq] at failed
  rw [format_eq]
  rcases bind_eq_error_iff.mp failed with failed | ⟨ready, reached, arrived, failed⟩
  · exact bind_eq_of_error failed _
  · rw [bind_eq_of_ok arrived]
    rcases bind_eq_error_iff.mp failed with failed | ⟨tree, parsed, succeeded, failed⟩
    · exact bind_eq_of_error failed _
    · rw [bind_eq_of_ok succeeded]
      exact bind_eq_of_error failed _

end Pipeline

end Polyglot
