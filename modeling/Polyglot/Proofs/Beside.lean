import Polyglot.Proofs.Embedding

/-!
# Failures beside the parser

A parse fails in a factory, in the preprocessing or in a hook (`Raises`) with the fault
as it was raised, without a frame. When the parse is embedded in another one, the parse
around cannot tell such a fault from one of its own parser: it frames it when it has a
location, and what it shows is its own text, which that location does not refer to
(`failure_beside_innermost`).
-/

namespace Polyglot.Embedding

open Outcome Pipeline Registry

variable {κ : Kit}

/-- The fault is raised in the parse, but not by its parser: by the factory of the parser or of
    hooks of its tree format, by the preprocessing, or by a hook of either stage. -/
inductive Raises (level : Level κ) (fault : Fault) : Prop
  | parserFactory {plugin : Plugin κ} {build : Action κ.State κ.Parser} {world : World κ.State}
      (found : level.entry.options.registry.findParser level.entry.options.context.parser = .ok plugin)
      (holds : plugin.parser? level.entry.options.context.parser = some (.lazy build))
      (failed : build (entered level.entry) = .error fault world)
  | hooksFactory {parser : κ.Parser} {begun : Invocation κ} {earlier later : List (Plugin κ)} {plugin : Plugin κ}
      {build : Action κ.State (List κ.Hook)} {lists : List (List κ.Hook)} {middle world : World κ.State}
      (enters : enter level.capabilities.toProfile level.entry = .ok parser begun)
      (named : level.capabilities.treeFormat parser ≠ "")
      (plugins : begun.options.registry.plugins = earlier ++ plugin :: later)
      (passed : earlier.mapM (ownHooks (level.capabilities.treeFormat parser)) begun.world = .ok lists middle)
      (holds : plugin.hooks? (level.capabilities.treeFormat parser) = some (.lazy build))
      (failed : build middle = .error fault world)
  | preprocessing {parser : κ.Parser} {begun gathered : Invocation κ} {hooks : List κ.Hook} {world : World κ.State}
      (enters : enter level.capabilities.toProfile level.entry = .ok parser begun)
      (gathers : gather level.capabilities.toProfile parser begun = .ok hooks gathered)
      (failed : level.capabilities.preprocess parser level.raw gathered.options gathered.world = .error fault world)
  | beforeHook {parser : κ.Parser} {begun gathered reached after : Invocation κ} {hooks earlier later : List κ.Hook}
      {hook : κ.Hook} {preprocessed text : String} {world : World κ.State}
      (enters : enter level.capabilities.toProfile level.entry = .ok parser begun)
      (gathers : gather level.capabilities.toProfile parser begun = .ok hooks gathered)
      (preprocesses : level.capabilities.preprocess parser level.raw gathered.options gathered.world =
        .ok preprocessed world)
      (split : Dispatch.declaring level.capabilities.toProfile .beforeParse hooks = earlier ++ hook :: later)
      (passed : earlier.foldlM (Dispatch.stepBefore level.capabilities) preprocessed { gathered with world } =
        .ok text reached)
      (failed : level.capabilities.beforeParse hook text
        (reached.reported (.running (level.capabilities.hookName hook) .beforeParse)) = .error fault after)
  | afterHook {ready : Ready κ} {reached edited after : Invocation κ} {earlier later : List κ.Hook} {hook : κ.Hook}
      {tree made : Tree} {world : World κ.State} (reaches : level.Reaches ready reached)
      (succeeded : level.capabilities.parse ready.parser ready.text reached.options reached.world = .ok tree world)
      (split : Dispatch.declaring level.capabilities.toProfile .afterParse ready.hooks = earlier ++ hook :: later)
      (passed : earlier.foldlM (Dispatch.stepAfter level.capabilities) tree { reached with world } = .ok made edited)
      (failed : level.capabilities.afterParse hook made
        (edited.reported (.running (level.capabilities.hookName hook) .afterParse)) = .error fault after)

/-! ## The failed stage -/

theorem resolveParser_eq_error {registry : Registry κ} {name : String} {plugin : Plugin κ}
    {build : Action κ.State κ.Parser} {before after : World κ.State} {fault : Fault}
    (found : registry.findParser name = .ok plugin) (holds : plugin.parser? name = some (.lazy build))
    (failed : build before = .error fault after) (profile : Profile κ) :
    registry.resolveParser profile name before = .error fault after := by
  have lookup : Action.ofExcept (registry.findParser name) before = .ok plugin before := by rw [found]; rfl
  rw [resolveParser, bind_eq_of_ok lookup]
  simp only [holds]
  exact bind_eq_of_error failed _

theorem resolveHooks_eq_error {registry : Registry κ} {treeFormat : String} {earlier later : List (Plugin κ)}
    {plugin : Plugin κ} {build : Action κ.State (List κ.Hook)} {lists : List (List κ.Hook)}
    {before middle after : World κ.State} {fault : Fault} (named : treeFormat ≠ "")
    (plugins : registry.plugins = earlier ++ plugin :: later)
    (passed : earlier.mapM (ownHooks treeFormat) before = .ok lists middle)
    (holds : plugin.hooks? treeFormat = some (.lazy build)) (failed : build middle = .error fault after) :
    registry.resolveHooks treeFormat before = .error fault after := by
  have own : ownHooks treeFormat plugin middle = .error fault after := by
    simp only [ownHooks, holds]
    exact failed
  simp only [resolveHooks, if_neg named, plugins]
  exact bind_eq_of_error (mapM_eq_error passed own later) _

theorem stepBefore_eq_error {capabilities : Capabilities κ} {text : String} {hook : κ.Hook}
    {before after : Invocation κ} {fault : Fault}
    (failed : capabilities.beforeParse hook text
      (before.reported (.running (capabilities.hookName hook) .beforeParse)) = .error fault after) :
    Dispatch.stepBefore capabilities text hook before = .error fault after := by
  rw [Dispatch.stepBefore, bind_eq_of_ok (report_eq ..)]
  exact failed

theorem stepAfter_eq_error {capabilities : Capabilities κ} {tree : Tree} {hook : κ.Hook}
    {before after : Invocation κ} {fault : Fault}
    (failed : capabilities.afterParse hook tree
      (before.reported (.running (capabilities.hookName hook) .afterParse)) = .error fault after) :
    Dispatch.stepAfter capabilities tree hook before = .error fault after := by
  rw [Dispatch.stepAfter, bind_eq_of_ok (report_eq ..)]
  exact bind_eq_of_error failed _

/-- A fault that is raised beside the parser is the fault of the parse. -/
theorem parse_eq_error_of_raises {level : Level κ} {fault : Fault} (raises : Raises level fault) :
    ∃ after, level.parse = .error fault after := by
  cases raises with
  | parserFactory found holds failed =>
    have unresolved := enter_eq_error_iff.mpr
      ⟨_, resolveParser_eq_error found holds failed level.capabilities.toProfile, rfl⟩
    exact ⟨_, parse_eq_error_of_approach (approach_eq_error_of_enter unresolved) level.pipeline⟩
  | hooksFactory enters named plugins passed holds failed =>
    have ungathered := gather_eq_error_iff.mpr ⟨_, resolveHooks_eq_error named plugins passed holds failed, rfl⟩
    exact ⟨_, parse_eq_error_of_approach (approach_eq_error_of_gather enters ungathered) level.pipeline⟩
  | preprocessing enters gathers failed =>
    exact ⟨_, parse_eq_error_of_approach (approach_eq_error_of_preprocess enters gathers failed) level.pipeline⟩
  | beforeHook enters gathers preprocesses split passed failed =>
    have stage := foldlM_eq_error_iff.mpr ⟨_, _, _, _, _, split, passed, stepBefore_eq_error failed⟩
    have unready := approach_eq_error_of_beforeParse enters gathers preprocesses stage
    exact ⟨_, parse_eq_error_of_approach unready level.pipeline⟩
  | afterHook reaches succeeded split passed failed =>
    have ran : level.pipeline.runParser level.capabilities _ level.raw _ _ = _ :=
      runParser_eq_ok_iff.mpr ⟨_, succeeded, rfl⟩
    have stage := foldlM_eq_error_iff.mpr ⟨_, _, _, _, _, split, passed, stepAfter_eq_error failed⟩
    exact ⟨_, parse_eq_error_of_conclude reaches ran (bind_eq_of_error stage _)⟩

/-! ## What the parses around make of it -/

/-- A fault that is raised beside the innermost parser leaves the outermost parse as it was
    raised just when there is no parse around, or it has no location, or it has a frame.
    Otherwise the nearest parse around puts the frame of its own raw text on it. -/
theorem failure_beside_innermost {around : List (Level κ)} {innermost : Level κ} {fault : Fault}
    (chain : Chain innermost around) (raises : Raises innermost fault) :
    ∃ answer after, (outermost around innermost).parse = .error answer after ∧
      answer.kind = fault.kind ∧ answer.location = fault.location ∧ answer.cause = fault.cause ∧
      (answer = fault ↔ around = [] ∨ fault.location = none ∨ fault.frame.isSome) ∧
      (∀ parent location, around.getLast? = some parent → fault.location = some location → fault.frame = none →
        answer = fault.attach (Frame.render parent.pipeline.frame parent.raw location)) := by
  obtain ⟨_, inside⟩ := parse_eq_error_of_raises raises
  obtain ⟨after, whole⟩ := parse_outermost_eq_error chain inside
  cases nearest : around.getLast? with
  | none =>
    have alone : around = [] := List.getLast?_eq_none_iff.mp nearest
    subst alone
    refine ⟨fault, after, whole, rfl, rfl, rfl, ⟨fun _ => .inl rfl, fun _ => rfl⟩, ?_⟩
    intro parent _ never
    cases never
  | some parent =>
    obtain ⟨outer, rfl⟩ := List.getLast?_eq_some_iff.mp nearest
    rw [framedAlong_concat] at whole
    have surrounded : outer ++ [parent] ≠ [] := List.append_ne_nil_of_right_ne_nil outer (List.cons_ne_nil parent [])
    refine ⟨parent.frame fault, after, whole, Fault.kind_framed .., Fault.location_framed .., Fault.cause_framed ..,
      ?_, ?_⟩
    · rw [or_iff_right surrounded]
      exact Fault.framed_eq_self_iff ..
    · intro other location same located bare
      cases same
      exact Fault.framed_of_located located bare ..

section
open Script

/-- A fault at the beginning of a text. -/
def refusal : Fault := (Fault.plugin "no").located (.point ⟨1, 1⟩)

/-- A hook that fails with it before the parse. -/
def refuser : ScriptHook := ⟨.closure "h" (.ok .any) (some [.own (.fail refusal)]) none, .any⟩

/-- A parser that embeds documents of another one, whose tree format the hook works on. -/
def guarded : Plugin kit := .ofDeclarations "p" [
  .parser "outer" (.scripted "p/outer" { treeFormat := "outer-ast", parse := .embed "|" "inner" (.ok {}) }),
  .parser "inner" (.scripted "p/inner" { treeFormat := "inner-ast", parse := .echo "k" }),
  .hook "inner-ast" refuser]

def enclosing : Level kit :=
  ⟨{}, Script.capabilities, "a|b", ⟨.new ⟨[guarded]⟩ "outer", { state := {} }⟩⟩

def enclosed (world : World Journal) : Level kit :=
  ⟨{}, .nest profile rules 1023, "b", ⟨enclosing.entry.options.embedded "inner", world⟩⟩

theorem enclosing_embeds_enclosed : ∃ world, Embeds enclosing (enclosed world) := by
  have reaches : enclosing.Reaches
      ⟨.scripted "p/outer" { treeFormat := "outer-ast", parse := .embed "|" "inner" (.ok {}) }, [], "a|b"⟩
      ⟨{ enclosing.entry.options with committed := some "a|b" }, _⟩ := rfl
  have capabilities : enclosing.capabilities = rules (.nest profile rules 1023) := rfl
  have split : Text.splitAtFirst "|".toList "a|b".toList = some (['a'], ['b']) := rfl
  have embeds := embeds_script reaches capabilities rfl rfl split
  exact ⟨_, embeds⟩

theorem enclosed_raises_refusal (world : World Journal) : Raises (enclosed world) refusal := by
  have enters : enter (enclosed world).capabilities.toProfile (enclosed world).entry =
      .ok (.scripted "p/inner" { treeFormat := "inner-ast", parse := .echo "k" }) _ := rfl
  have split : Dispatch.declaring (enclosed world).capabilities.toProfile .beforeParse [refuser] =
      [] ++ refuser :: [] := rfl
  exact .beforeHook enters rfl rfl split rfl rfl

/-- The fault of the hook leaves with a frame of the text around. -/
theorem failure_beside_enclosed :
    ∃ world, Chain (enclosed world) [enclosing] ∧ Raises (enclosed world) refusal ∧
      ∃ after, enclosing.parse = .error (refusal.attach "> 1 | a|b\n    | ^") after := by
  obtain ⟨world, embeds⟩ := enclosing_embeds_enclosed
  have chain : Chain (enclosed world) [enclosing] := .inside embeds .alone
  have raises := enclosed_raises_refusal world
  obtain ⟨answer, after, whole, _, _, _, _, framed⟩ := failure_beside_innermost chain raises
  have shown : Frame.render {} "a|b" (.point ⟨1, 1⟩) = "> 1 | a|b\n    | ^" := by decide
  have answered : answer = refusal.attach "> 1 | a|b\n    | ^" :=
    (framed enclosing (.point ⟨1, 1⟩) rfl rfl rfl).trans (congrArg refusal.attach shown)
  subst answered
  exact ⟨world, chain, raises, after, whole⟩

/-- So not every fault that is raised without a frame leaves as it was raised. -/
theorem not_unchanged_beside_innermost :
    ¬ ∀ (around : List (Level kit)) (innermost : Level kit) (fault : Fault), Chain innermost around →
      Raises innermost fault → fault.frame = none →
      ∃ after, (outermost around innermost).parse = .error fault after := by
  intro unchanged
  obtain ⟨world, embeds⟩ := enclosing_embeds_enclosed
  obtain ⟨after, whole⟩ :=
    unchanged [enclosing] (enclosed world) refusal (.inside embeds .alone) (enclosed_raises_refusal world) rfl
  obtain ⟨_, inside⟩ := parse_eq_error_of_raises (enclosed_raises_refusal world)
  obtain ⟨_, framed⟩ := parse_eq_error_of_embeds embeds inside
  have both : (EStateM.Result.error refusal after : EStateM.Result Fault (Invocation kit) Parsed) =
      .error (enclosing.frame refusal) _ := whole.symm.trans framed
  have same : enclosing.frame refusal = refusal := (EStateM.Result.error.inj both).1.symm
  have bare := (Fault.framed_eq_self_iff ..).mp same
  revert bare
  decide

end

end Polyglot.Embedding
