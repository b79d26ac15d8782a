import Polyglot.Proofs.Calls

/-!
# The course of a parse

A parse that has no parser, no hooks or no preprocessed text fails before its first call,
and its options are as they were (`Early`). Otherwise its calls begin (`Opens`): they are
made as planned, all of them (`parse_eq_ok_iff_opens`) or up to one that fails (`Stops`,
`parse_eq_error_iff_course`).
-/

namespace Polyglot.Pipeline

open Outcome Declared

variable {κ : Kit}

/-- The calls of a plan before its parser is called. -/
def Plan.before (profile : Profile κ) (plan : Plan κ) : List (Call κ) :=
  (Dispatch.declaring profile .beforeParse plan.hooks).map .before

/-- The calls of a plan once its parser was called. -/
def Plan.after (profile : Profile κ) (plan : Plan κ) : List (Call κ) :=
  (Dispatch.declaring profile .afterParse plan.hooks).map .after

theorem Plan.calls_eq (profile : Profile κ) (plan : Plan κ) :
    plan.calls profile = plan.before profile ++ .parse plan.parser :: plan.after profile := rfl

/-! ## Before the first call -/

/-- The parse fails with a fault before a hook or its parser is called. -/
inductive Early (capabilities : Capabilities κ) (raw : String) (entry : Invocation κ) (fault : Fault) :
    Invocation κ → Prop
  | resolvingParser {after : Invocation κ} (failed : enter capabilities.toProfile entry = .error fault after) :
      Early capabilities raw entry fault after
  | resolvingHooks {parser : κ.Parser} {begun after : Invocation κ}
      (enters : enter capabilities.toProfile entry = .ok parser begun)
      (failed : gather capabilities.toProfile parser begun = .error fault after) :
      Early capabilities raw entry fault after
  | preprocessing {parser : κ.Parser} {hooks : List κ.Hook} {begun gathered : Invocation κ} {world : World κ.State}
      (enters : enter capabilities.toProfile entry = .ok parser begun)
      (gathers : gather capabilities.toProfile parser begun = .ok hooks gathered)
      (failed : capabilities.preprocess parser raw gathered.options gathered.world = .error fault world) :
      Early capabilities raw entry fault { gathered with world }

/-- The parse has its plan and its preprocessed text, and its calls are about to begin. -/
inductive Opens (capabilities : Capabilities κ) (raw : String) (entry : Invocation κ) :
    Plan κ → String → Invocation κ → Prop
  | intro {plan : Plan κ} {begun gathered : Invocation κ} {text : String} {world : World κ.State}
      (enters : enter capabilities.toProfile entry = .ok plan.parser begun)
      (gathers : gather capabilities.toProfile plan.parser begun = .ok plan.hooks gathered)
      (preprocesses : capabilities.preprocess plan.parser raw gathered.options gathered.world = .ok text world) :
      Opens capabilities raw entry plan text { gathered with world }

theorem keeps_options_ofAction {α : Type} (action : Options κ → Action κ.State α) :
    Keeps Invocation.options (Run.ofAction action) := by
  intro before
  unfold Run.ofAction
  cases action before.options before.world <;> rfl

theorem keeps_options_enter (profile : Profile κ) : Keeps Invocation.options (enter profile) :=
  keeps_options_ofAction _

theorem keeps_options_gather (profile : Profile κ) (parser : κ.Parser) :
    Keeps Invocation.options (gather profile parser) :=
  (keeps_options_ofAction _).bind fun _ => keeps_options_ofAction _

/-- Until its first call a parse changes none of its options. -/
theorem options_of_early {capabilities : Capabilities κ} {raw : String} {entry after : Invocation κ} {fault : Fault}
    (early : Early capabilities raw entry fault after) : after.options = entry.options := by
  cases early with
  | resolvingParser failed => exact (keeps_options_enter _).of_error failed
  | resolvingHooks enters failed =>
    exact ((keeps_options_gather _ _).of_error failed).trans ((keeps_options_enter _).of_ok enters)
  | preprocessing enters gathers _ =>
    exact ((keeps_options_gather _ _).of_ok gathers).trans ((keeps_options_enter _).of_ok enters)

theorem options_of_opens {capabilities : Capabilities κ} {raw text : String} {entry start : Invocation κ}
    {plan : Plan κ} (opens : Opens capabilities raw entry plan text start) : start.options = entry.options := by
  cases opens with
  | intro enters gathers _ =>
    exact ((keeps_options_gather _ _).of_ok gathers).trans ((keeps_options_enter _).of_ok enters)

theorem parse_eq_error_of_early {capabilities : Capabilities κ} {raw : String} {entry after : Invocation κ}
    {fault : Fault} (early : Early capabilities raw entry fault after) (pipeline : Pipeline) :
    pipeline.parse capabilities raw entry = .error fault after := by
  apply parse_eq_error_of_approach
  cases early with
  | resolvingParser failed => exact approach_eq_error_of_enter failed
  | resolvingHooks enters failed => exact approach_eq_error_of_gather enters failed
  | preprocessing enters gathers failed => exact approach_eq_error_of_preprocess enters gathers failed

/-! ## What hooks leave alone -/

/-- A hook that leaves what `view` shows of the options as it is, at both stages and also where it fails. -/
structure Spares {ρ : Type} (capabilities : Capabilities κ) (view : Options κ → ρ) (hook : κ.Hook) : Prop where
  before (text : String) : Keeps (fun invocation => view invocation.options) (capabilities.beforeParse hook text)
  after (tree : Tree) : Keeps (fun invocation => view invocation.options) (capabilities.afterParse hook tree)

section
variable {capabilities : Capabilities κ} {holds : Invocation κ → Prop} {hooks : List κ.Hook}

theorem preserves_stepBefore (reports : ∀ event, Preserves holds (Run.report event)) {hook : κ.Hook} {text : String}
    (call : Preserves holds (capabilities.beforeParse hook text)) :
    Preserves holds (Dispatch.stepBefore capabilities text hook) :=
  (reports _).bind fun _ => call

theorem preserves_stepAfter (reports : ∀ event, Preserves holds (Run.report event)) {hook : κ.Hook} {tree : Tree}
    (call : Preserves holds (capabilities.afterParse hook tree)) :
    Preserves holds (Dispatch.stepAfter capabilities tree hook) := by
  refine (reports _).bind fun _ => call.bind fun edit => ?_
  cases edit.replacement with
  | none => exact preserves_pure _
  | some replacement => exact (reports _).bind fun _ => preserves_pure _

/-- What the hooks of a stage and reports preserve, the stage preserves. -/
theorem preserves_beforeParse (reports : ∀ event, Preserves holds (Run.report event))
    (calls : ∀ hook ∈ hooks, ∀ text, Preserves holds (capabilities.beforeParse hook text)) (text : String) :
    Preserves holds (Dispatch.beforeParse capabilities hooks text) := by
  refine .foldlM (fun hook member made => preserves_stepBefore reports (calls hook ?_ made)) text
  exact (List.mem_filter.mp member).1

theorem preserves_afterParse (reports : ∀ event, Preserves holds (Run.report event))
    (calls : ∀ hook ∈ hooks, ∀ tree, Preserves holds (capabilities.afterParse hook tree)) (tree : Tree) :
    Preserves holds (Dispatch.afterParse capabilities hooks tree) := by
  refine .foldlM (fun hook member made => preserves_stepAfter reports (calls hook ?_ made)) tree
  exact (List.mem_filter.mp member).1

variable {ρ : Type} {view : Options κ → ρ}

theorem preserves_report (shown : ρ) (event : Event) :
    Preserves (fun invocation => view invocation.options = shown) (Run.report event : Run κ Unit) :=
  fun _ held => held

theorem keeps_stepBefore {hook : κ.Hook} (spares : Spares capabilities view hook) (text : String) :
    Keeps (fun invocation => view invocation.options) (Dispatch.stepBefore capabilities text hook) :=
  keeps_iff_preserves.mpr fun shown =>
    preserves_stepBefore (preserves_report shown) (keeps_iff_preserves.mp (spares.before text) shown)

theorem keeps_beforeParse (spares : ∀ hook ∈ hooks, Spares capabilities view hook) (text : String) :
    Keeps (fun invocation => view invocation.options) (Dispatch.beforeParse capabilities hooks text) := by
  refine keeps_iff_preserves.mpr fun shown => preserves_beforeParse (preserves_report shown) ?_ text
  intro hook member made
  exact keeps_iff_preserves.mp ((spares hook member).before made) shown

theorem keeps_afterParse (spares : ∀ hook ∈ hooks, Spares capabilities view hook) (tree : Tree) :
    Keeps (fun invocation => view invocation.options) (Dispatch.afterParse capabilities hooks tree) := by
  refine keeps_iff_preserves.mpr fun shown => preserves_afterParse (preserves_report shown) ?_ tree
  intro hook member made
  exact keeps_iff_preserves.mp ((spares hook member).after made) shown

end

/-! ## The calls -/

/-- What is left of a parse once its calls are about to begin. -/
def proceed (pipeline : Pipeline) (capabilities : Capabilities κ) (raw : String) (plan : Plan κ) (text : String) :
    Run κ Parsed := do
  let text ← Dispatch.beforeParse capabilities plan.hooks text
  commit text
  let tree ← pipeline.runParser capabilities plan.parser raw text
  conclude capabilities ⟨plan.parser, plan.hooks, text⟩ tree

theorem preserves_runParser {capabilities : Capabilities κ} {holds : Invocation κ → Prop}
    (reports : ∀ event, Preserves holds (Run.report event)) {parser : κ.Parser} {text : String}
    (call : Preserves holds (Run.ofAction (capabilities.parse parser text))) (pipeline : Pipeline) (raw : String) :
    Preserves holds (pipeline.runParser capabilities parser raw text) := by
  intro before held
  have kept := call before held
  unfold runParser
  generalize Run.ofAction (capabilities.parse parser text) before = outcome at kept ⊢
  cases outcome with
  | ok tree after => exact kept
  | error fault after => exact reports (.failed _ _ _) after kept

/-- What the calls of a plan, the commit and reports preserve, the rest of the parse preserves. -/
theorem preserves_proceed {capabilities : Capabilities κ} {holds : Invocation κ → Prop} {plan : Plan κ}
    (reports : ∀ event, Preserves holds (Run.report event)) (commits : ∀ text, Preserves holds (commit text))
    (parses : ∀ text, Preserves holds (Run.ofAction (capabilities.parse plan.parser text)))
    (before : ∀ hook ∈ plan.hooks, ∀ text, Preserves holds (capabilities.beforeParse hook text))
    (after : ∀ hook ∈ plan.hooks, ∀ tree, Preserves holds (capabilities.afterParse hook tree))
    (pipeline : Pipeline) (raw text : String) : Preserves holds (pipeline.proceed capabilities raw plan text) := by
  refine (preserves_beforeParse reports before text).bind fun made => (commits made).bind fun _ => ?_
  refine (preserves_runParser reports (parses made) pipeline raw).bind fun tree => ?_
  exact (preserves_afterParse reports after tree).bind fun _ => (reports _).bind fun _ => preserves_pure _

theorem parse_eq_proceed (pipeline : Pipeline) (capabilities : Capabilities κ) (raw : String) :
    pipeline.parse capabilities raw = (do
      let parser ← enter capabilities.toProfile
      let hooks ← gather capabilities.toProfile parser
      let text ← Run.ofAction (capabilities.preprocess parser raw)
      pipeline.proceed capabilities raw ⟨parser, hooks⟩ text) := by
  simp only [parse_eq, approach, proceed, bind_assoc, pure_bind]

theorem format_eq_proceed (pipeline : Pipeline) (capabilities : Capabilities κ) (raw : String) :
    pipeline.format capabilities raw = (do
      let parser ← enter capabilities.toProfile
      let hooks ← gather capabilities.toProfile parser
      let text ← Run.ofAction (capabilities.preprocess parser raw)
      let parsed ← pipeline.proceed capabilities raw ⟨parser, hooks⟩ text
      Run.ofAction (printOn capabilities (capabilities.treeFormat parser) parsed.tree)) := by
  simp only [format_eq, approach, proceed, bind_assoc, pure_bind]

theorem parse_eq_of_opens {capabilities : Capabilities κ} {raw text : String} {entry start : Invocation κ}
    {plan : Plan κ} (opens : Opens capabilities raw entry plan text start) (pipeline : Pipeline) :
    pipeline.parse capabilities raw entry = pipeline.proceed capabilities raw plan text start := by
  cases opens with
  | intro enters gathers preprocesses =>
    have passed := ofAction_eq_ok_iff.mpr ⟨_, preprocesses, rfl⟩
    rw [parse_eq_proceed, bind_eq_of_ok enters, bind_eq_of_ok gathers, bind_eq_of_ok passed]

/-- Printing follows the calls of the parse, with the tree format of the parser of the plan. -/
theorem format_eq_of_opens {capabilities : Capabilities κ} {raw text : String} {entry start : Invocation κ}
    {plan : Plan κ} (opens : Opens capabilities raw entry plan text start) (pipeline : Pipeline) :
    pipeline.format capabilities raw entry = (do
      let parsed ← pipeline.proceed capabilities raw plan text
      Run.ofAction (printOn capabilities (capabilities.treeFormat plan.parser) parsed.tree)) start := by
  cases opens with
  | intro enters gathers preprocesses =>
    have passed := ofAction_eq_ok_iff.mpr ⟨_, preprocesses, rfl⟩
    rw [format_eq_proceed, bind_eq_of_ok enters, bind_eq_of_ok gathers, bind_eq_of_ok passed]

/-- A parse fails early, or its calls begin. -/
theorem early_or_opens (capabilities : Capabilities κ) (raw : String) (entry : Invocation κ) :
    (∃ fault after, Early capabilities raw entry fault after) ∨
      ∃ plan text start, Opens capabilities raw entry plan text start := by
  cases enters : enter capabilities.toProfile entry with
  | error fault after => exact .inl ⟨fault, after, .resolvingParser enters⟩
  | ok parser begun =>
    cases gathers : gather capabilities.toProfile parser begun with
    | error fault after => exact .inl ⟨fault, after, .resolvingHooks enters gathers⟩
    | ok hooks gathered =>
      cases preprocesses : capabilities.preprocess parser raw gathered.options gathered.world with
      | error fault world => exact .inl ⟨fault, _, .preprocessing enters gathers preprocesses⟩
      | ok text world =>
        have opens : Opens capabilities raw entry ⟨parser, hooks⟩ text { gathered with world } :=
          .intro enters gathers preprocesses
        exact .inr ⟨⟨parser, hooks⟩, text, _, opens⟩

theorem not_opens_of_early {capabilities : Capabilities κ} {raw text : String} {entry after start : Invocation κ}
    {fault : Fault} {plan : Plan κ} (early : Early capabilities raw entry fault after) :
    ¬ Opens capabilities raw entry plan text start := by
  rintro ⟨enters, gathers, preprocesses⟩
  cases early with
  | resolvingParser failed => cases enters.symm.trans failed
  | resolvingHooks entersAgain failed =>
    cases enters.symm.trans entersAgain
    cases gathers.symm.trans failed
  | preprocessing entersAgain gathersAgain failed =>
    cases enters.symm.trans entersAgain
    cases gathers.symm.trans gathersAgain
    cases preprocesses.symm.trans failed

/-- The calls of a parse begin in one way at most. -/
theorem opens_unique {capabilities : Capabilities κ} {raw text again : String} {entry start other : Invocation κ}
    {plan second : Plan κ} (opens : Opens capabilities raw entry plan text start)
    (opensAgain : Opens capabilities raw entry second again other) :
    plan = second ∧ text = again ∧ start = other := by
  obtain ⟨enters, gathers, preprocesses⟩ := opens
  obtain ⟨entersAgain, gathersAgain, preprocessesAgain⟩ := opensAgain
  obtain ⟨parser, hooks⟩ := plan
  obtain ⟨otherParser, otherHooks⟩ := second
  cases enters.symm.trans entersAgain
  cases gathers.symm.trans gathersAgain
  cases preprocesses.symm.trans preprocessesAgain
  exact ⟨rfl, rfl, rfl⟩

/-- A parse whose calls begin has the parser and the hooks that are planned for it. -/
theorem planned_of_opens {capabilities : Capabilities κ} {raw text : String} {entry start : Invocation κ}
    {plan : Plan κ} {bundles : List (Bundle κ)}
    (registered : entry.options.registry.plugins = bundles.map Bundle.plugin)
    (opens : Opens capabilities raw entry plan text start) :
    ∃ found declared supplied,
      entry.options.registry.resolveParser capabilities.toProfile entry.options.context.parser (entered entry) =
        .ok plan.parser found ∧
      capabilities.treeFormat plan.parser ≠ "" ∧
      Supplied (hookSources (capabilities.treeFormat plan.parser) bundles) found declared supplied ∧
      plan.hooks = Dispatch.inScope capabilities.toProfile entry.options.context declared := by
  obtain ⟨enters, gathers, _⟩ := opens
  obtain ⟨_, planned, _⟩ := (gathers_iff_planned registered).mp ⟨_, enters, gathers⟩
  obtain ⟨found, declared, supplied, resolves, named, supplies, selects, _⟩ := planned_iff.mp planned
  exact ⟨found, declared, supplied, resolves, named, supplies, selects⟩

/-- A call that fails: the document and the invocation that it is given, and what it leaves. -/
inductive Breaks (capabilities : Capabilities κ) :
    Call κ → Document → Invocation κ → Fault → Invocation κ → Prop
  | before {hook : κ.Hook} {text : String} {before after : Invocation κ} {fault : Fault}
      (failed : capabilities.beforeParse hook text
        (before.reported (.running (capabilities.hookName hook) .beforeParse)) = .error fault after) :
      Breaks capabilities (.before hook) (.source text) before fault after
  | parse {parser : κ.Parser} {text : String} {before : Invocation κ} {world : World κ.State} {fault : Fault}
      (failed : capabilities.parse parser text { before.options with committed := some text } before.world =
        .error fault world) :
      Breaks capabilities (.parse parser) (.source text) before fault
        ⟨{ before.options with committed := some text }, world⟩
  | after {hook : κ.Hook} {text : String} {tree : Tree} {before after : Invocation κ} {fault : Fault}
      (failed : capabilities.afterParse hook tree
        (before.reported (.running (capabilities.hookName hook) .afterParse)) = .error fault after) :
      Breaks capabilities (.after hook) (.parsed ⟨text, tree⟩) before fault after

/-- The calls of a plan are made up to one that fails, and with that the parse fails. The fault of
    the parser is given a frame; those of hooks are handed on. -/
inductive Stops (pipeline : Pipeline) (capabilities : Capabilities κ) (raw : String) (plan : Plan κ) (text : String)
    (start : Invocation κ) : Fault → Invocation κ → Prop
  | before {earlier later : List κ.Hook} {hook : κ.Hook} {made : String} {middle after : Invocation κ}
      {fault : Fault}
      (split : Dispatch.declaring capabilities.toProfile .beforeParse plan.hooks = earlier ++ hook :: later)
      (passed : Calls capabilities (earlier.map .before) (.source text) start (.source made) middle)
      (breaks : Breaks capabilities (.before hook) (.source made) middle fault after) :
      Stops pipeline capabilities raw plan text start fault after
  | parser {made : String} {handed after : Invocation κ} {fault : Fault}
      (passed : Calls capabilities (plan.before capabilities.toProfile) (.source text) start (.source made) handed)
      (breaks : Breaks capabilities (.parse plan.parser) (.source made) handed fault after) :
      Stops pipeline capabilities raw plan text start (fault.framed pipeline.frame raw)
        (after.reported (.failed (capabilities.treeFormat plan.parser) fault.kind fault.location.isSome))
  | after {earlier later : List κ.Hook} {hook : κ.Hook} {made : String} {tree changed : Tree}
      {handed reached middle after : Invocation κ} {fault : Fault}
      (passed : Calls capabilities (plan.before capabilities.toProfile) (.source text) start (.source made) handed)
      (parses : Made capabilities (.parse plan.parser) (.source made) handed (.parsed ⟨made, tree⟩) reached)
      (split : Dispatch.declaring capabilities.toProfile .afterParse plan.hooks = earlier ++ hook :: later)
      (edited : Calls capabilities (earlier.map .after) (.parsed ⟨made, tree⟩) reached
        (.parsed ⟨made, changed⟩) middle)
      (breaks : Breaks capabilities (.after hook) (.parsed ⟨made, changed⟩) middle fault after) :
      Stops pipeline capabilities raw plan text start fault after

/-! ## One call that fails -/

theorem breaks_before_iff {capabilities : Capabilities κ} {hook : κ.Hook} {text : String}
    {before after : Invocation κ} {fault : Fault} :
    Breaks capabilities (.before hook) (.source text) before fault after ↔
      Dispatch.stepBefore capabilities text hook before = .error fault after := by
  rw [Dispatch.stepBefore, bind_eq_of_ok (report_eq ..)]
  constructor
  · rintro ⟨failed⟩
    exact failed
  · exact .before

theorem breaks_parse_iff {capabilities : Capabilities κ} {parser : κ.Parser} {text : String}
    {before after : Invocation κ} {fault : Fault} :
    Breaks capabilities (.parse parser) (.source text) before fault after ↔
      ∃ world, capabilities.parse parser text { before.options with committed := some text } before.world =
          .error fault world ∧ after = ⟨{ before.options with committed := some text }, world⟩ := by
  constructor
  · intro breaks
    cases breaks with
    | parse failed => exact ⟨_, failed, rfl⟩
  · rintro ⟨world, failed, rfl⟩
    exact .parse failed

theorem breaks_after_iff {capabilities : Capabilities κ} {hook : κ.Hook} {text : String} {tree : Tree}
    {before after : Invocation κ} {fault : Fault} :
    Breaks capabilities (.after hook) (.parsed ⟨text, tree⟩) before fault after ↔
      Dispatch.stepAfter capabilities tree hook before = .error fault after := by
  rw [Dispatch.stepAfter, bind_eq_of_ok (report_eq ..), bind_eq_error_iff]
  constructor
  · intro breaks
    cases breaks with
    | after failed => exact .inl failed
  · rintro (failed | ⟨edit, _, _, never⟩)
    · exact .after failed
    · -- What is done with an edit does not fail.
      cases replaced : edit.replacement with
      | none => rw [replaced] at never; cases never
      | some tree => rw [replaced] at never; cases never

/-- The stage before the parse fails at the first hook whose call fails. -/
theorem beforeParse_eq_error_iff {capabilities : Capabilities κ} {hooks : List κ.Hook} {text : String}
    {before after : Invocation κ} {fault : Fault} :
    Dispatch.beforeParse capabilities hooks text before = .error fault after ↔
      ∃ earlier hook later made middle,
        Dispatch.declaring capabilities.toProfile .beforeParse hooks = earlier ++ hook :: later ∧
        Calls capabilities (earlier.map .before) (.source text) before (.source made) middle ∧
        Breaks capabilities (.before hook) (.source made) middle fault after := by
  rw [Dispatch.beforeParse, foldlM_eq_error_iff]
  constructor
  · rintro ⟨earlier, hook, later, made, middle, split, passed, failed⟩
    exact ⟨earlier, hook, later, made, middle, split, calls_before_iff.mpr ⟨made, rfl, passed⟩,
      breaks_before_iff.mpr failed⟩
  · rintro ⟨earlier, hook, later, made, middle, split, passed, breaks⟩
    obtain ⟨_, same, passed⟩ := calls_before_iff.mp passed
    cases same
    exact ⟨earlier, hook, later, made, middle, split, passed, breaks_before_iff.mp breaks⟩

/-- The stage after the parse fails at the first hook whose call fails. -/
theorem afterParse_eq_error_iff {capabilities : Capabilities κ} {hooks : List κ.Hook} {text : String} {tree : Tree}
    {before after : Invocation κ} {fault : Fault} :
    Dispatch.afterParse capabilities hooks tree before = .error fault after ↔
      ∃ earlier hook later changed middle,
        Dispatch.declaring capabilities.toProfile .afterParse hooks = earlier ++ hook :: later ∧
        Calls capabilities (earlier.map .after) (.parsed ⟨text, tree⟩) before
          (.parsed ⟨text, changed⟩) middle ∧
        Breaks capabilities (.after hook) (.parsed ⟨text, changed⟩) middle fault after := by
  rw [Dispatch.afterParse, foldlM_eq_error_iff]
  constructor
  · rintro ⟨earlier, hook, later, changed, middle, split, passed, failed⟩
    exact ⟨earlier, hook, later, changed, middle, split, calls_after_iff.mpr ⟨changed, rfl, passed⟩,
      breaks_after_iff.mpr failed⟩
  · rintro ⟨earlier, hook, later, changed, middle, split, passed, breaks⟩
    obtain ⟨_, same, passed⟩ := calls_after_iff.mp passed
    cases same
    exact ⟨earlier, hook, later, changed, middle, split, passed, breaks_after_iff.mp breaks⟩

theorem beforeParse_eq_ok_iff {capabilities : Capabilities κ} {hooks : List κ.Hook} {text made : String}
    {before after : Invocation κ} :
    Dispatch.beforeParse capabilities hooks text before = .ok made after ↔
      Calls capabilities ((Dispatch.declaring capabilities.toProfile .beforeParse hooks).map .before)
        (.source text) before (.source made) after := by
  rw [calls_before_iff, Dispatch.beforeParse]
  constructor
  · intro stage
    exact ⟨made, rfl, stage⟩
  · rintro ⟨_, same, stage⟩
    cases same
    exact stage

/-! ## The whole parse -/

theorem proceed_eq_ok_iff {pipeline : Pipeline} {capabilities : Capabilities κ} {raw text : String} {plan : Plan κ}
    {start after : Invocation κ} {parsed : Parsed} :
    pipeline.proceed capabilities raw plan text start = .ok parsed after ↔
      ∃ last, Calls capabilities (plan.calls capabilities.toProfile) (.source text) start (.parsed parsed) last ∧
        after = last.reported (.complete (capabilities.treeFormat plan.parser) plan.hooks.length) := by
  unfold proceed
  simp only [bind_eq_ok_iff, runParser_eq_ok_iff, conclude_eq_ok_iff, calls_plan_iff]
  constructor
  · rintro ⟨_, handed, stage, _, _, commits, tree, _, ⟨world, succeeded, rfl⟩, last, stageAfter, same, rfl⟩
    cases commits
    subst same
    exact ⟨last, ⟨handed, tree, world, stage, succeeded, stageAfter⟩, rfl⟩
  · rintro ⟨last, ⟨handed, tree, world, stage, succeeded, stageAfter⟩, rfl⟩
    exact ⟨parsed.text, handed, stage, _, _, rfl, tree, _, ⟨world, succeeded, rfl⟩, last, stageAfter, rfl, rfl⟩

/-- A parse succeeds when its calls begin and all of them succeed. -/
theorem parse_eq_ok_iff_opens {pipeline : Pipeline} {capabilities : Capabilities κ} {raw : String}
    {entry after : Invocation κ} {parsed : Parsed} :
    pipeline.parse capabilities raw entry = .ok parsed after ↔
      ∃ plan text start last, Opens capabilities raw entry plan text start ∧
        Calls capabilities (plan.calls capabilities.toProfile) (.source text) start (.parsed parsed) last ∧
        after = last.reported (.complete (capabilities.treeFormat plan.parser) plan.hooks.length) := by
  constructor
  · intro succeeded
    rcases early_or_opens capabilities raw entry with ⟨fault, last, early⟩ | ⟨plan, text, start, opens⟩
    · rw [parse_eq_error_of_early early] at succeeded
      cases succeeded
    · rw [parse_eq_of_opens opens] at succeeded
      obtain ⟨last, calls, rfl⟩ := proceed_eq_ok_iff.mp succeeded
      exact ⟨plan, text, start, last, opens, calls, rfl⟩
  · rintro ⟨plan, text, start, last, opens, calls, rfl⟩
    rw [parse_eq_of_opens opens]
    exact proceed_eq_ok_iff.mpr ⟨last, calls, rfl⟩

/-- Once the hooks before the parse are through, the parser is given their text and the options with
    that text committed. -/
theorem proceed_eq_of_beforeParse {capabilities : Capabilities κ} {text made : String} {plan : Plan κ}
    {start handed : Invocation κ}
    (stage : Dispatch.beforeParse capabilities plan.hooks text start = .ok made handed) (pipeline : Pipeline)
    (raw : String) :
    pipeline.proceed capabilities raw plan text start =
      (pipeline.runParser capabilities plan.parser raw made >>=
        conclude capabilities ⟨plan.parser, plan.hooks, made⟩)
        ⟨{ handed.options with committed := some made }, handed.world⟩ := by
  rw [proceed, bind_eq_of_ok stage]
  rfl

theorem runParser_eq_ok_iff_made {pipeline : Pipeline} {capabilities : Capabilities κ} {parser : κ.Parser}
    {raw text : String} {before after : Invocation κ} {tree : Tree} :
    pipeline.runParser capabilities parser raw text
        ⟨{ before.options with committed := some text }, before.world⟩ = .ok tree after ↔
      Made capabilities (.parse parser) (.source text) before (.parsed ⟨text, tree⟩) after := by
  rw [runParser_eq_ok_iff]
  constructor
  · rintro ⟨world, succeeded, rfl⟩
    exact .parse succeeded
  · intro made
    cases made with
    | parse succeeded => exact ⟨_, succeeded, rfl⟩

theorem runParser_eq_error_iff {pipeline : Pipeline} {capabilities : Capabilities κ} {parser : κ.Parser}
    {raw text : String} {before after : Invocation κ} {answer : Fault} :
    pipeline.runParser capabilities parser raw text
        ⟨{ before.options with committed := some text }, before.world⟩ = .error answer after ↔
      ∃ fault last, Breaks capabilities (.parse parser) (.source text) before fault last ∧
        answer = fault.framed pipeline.frame raw ∧
        after = last.reported (.failed (capabilities.treeFormat parser) fault.kind fault.location.isSome) := by
  cases outcome : capabilities.parse parser text { before.options with committed := some text } before.world with
  | error fault world =>
    have broken : pipeline.runParser capabilities parser raw text
        ⟨{ before.options with committed := some text }, before.world⟩ = _ :=
      runParser_eq_error outcome pipeline raw
    rw [broken]
    constructor
    · intro same
      cases same
      exact ⟨fault, _, .parse outcome, rfl, rfl⟩
    · rintro ⟨_, _, breaks, rfl, rfl⟩
      cases breaks with
      | parse failed =>
        rw [outcome] at failed
        cases failed
        rfl
  | ok tree world =>
    have made : Made capabilities (.parse parser) (.source text) before (.parsed ⟨text, tree⟩) _ := .parse outcome
    rw [runParser_eq_ok_iff_made.mpr made]
    constructor
    · intro never
      cases never
    · rintro ⟨_, _, breaks, _⟩
      cases breaks with
      | parse failed =>
        rw [outcome] at failed
        cases failed

/-- A parse gets as far as its parser when its calls begin and those of the hooks before the parser succeed. -/
theorem approach_eq_ok_iff_opens {capabilities : Capabilities κ} {raw : String} {entry reached : Invocation κ}
    {ready : Ready κ} :
    approach capabilities raw entry = .ok ready reached ↔
      ∃ text start handed, Opens capabilities raw entry ⟨ready.parser, ready.hooks⟩ text start ∧
        Dispatch.beforeParse capabilities ready.hooks text start = .ok ready.text handed ∧
        reached = { handed with options := { handed.options with committed := some ready.text } } := by
  rw [approach_eq_ok_iff]
  constructor
  · rintro ⟨begun, gathered, text, world, handed, enters, gathers, preprocesses, stage, rfl⟩
    have opens : Opens capabilities raw entry ⟨ready.parser, ready.hooks⟩ text { gathered with world } :=
      .intro enters gathers preprocesses
    exact ⟨text, _, handed, opens, stage, rfl⟩
  · rintro ⟨text, _, handed, ⟨enters, gathers, preprocesses⟩, stage, rfl⟩
    exact ⟨_, _, text, _, handed, enters, gathers, preprocesses, stage, rfl⟩

theorem proceed_eq_error_iff {pipeline : Pipeline} {capabilities : Capabilities κ} {raw text : String}
    {plan : Plan κ} {start after : Invocation κ} {fault : Fault} :
    pipeline.proceed capabilities raw plan text start = .error fault after ↔
      Stops pipeline capabilities raw plan text start fault after := by
  constructor
  · intro failed
    cases stage : Dispatch.beforeParse capabilities plan.hooks text start with
    | error raised last =>
      rw [proceed, bind_eq_of_error stage] at failed
      cases failed
      obtain ⟨_, _, _, _, _, split, passed, breaks⟩ := beforeParse_eq_error_iff.mp stage
      exact .before split passed breaks
    | ok made handed =>
      have passed := beforeParse_eq_ok_iff.mp stage
      rw [proceed_eq_of_beforeParse stage] at failed
      rcases bind_eq_error_iff.mp failed with failed | ⟨tree, reached, parses, failed⟩
      · obtain ⟨_, _, breaks, rfl, rfl⟩ := runParser_eq_error_iff.mp failed
        exact .parser passed breaks
      · rcases bind_eq_error_iff.mp failed with failed | ⟨_, _, _, never⟩
        · obtain ⟨_, _, _, _, _, split, edited, breaks⟩ := afterParse_eq_error_iff.mp failed
          exact .after passed (runParser_eq_ok_iff_made.mp parses) split edited breaks
        · cases never
  · intro stops
    cases stops with
    | before split passed breaks =>
      have stage := beforeParse_eq_error_iff.mpr ⟨_, _, _, _, _, split, passed, breaks⟩
      exact bind_eq_of_error stage _
    | parser passed breaks =>
      rw [proceed_eq_of_beforeParse (beforeParse_eq_ok_iff.mpr passed)]
      exact bind_eq_of_error (runParser_eq_error_iff.mpr ⟨_, _, breaks, rfl, rfl⟩) _
    | after passed parses split edited breaks =>
      have stage := afterParse_eq_error_iff.mpr ⟨_, _, _, _, _, split, edited, breaks⟩
      rw [proceed_eq_of_beforeParse (beforeParse_eq_ok_iff.mpr passed),
        bind_eq_of_ok (runParser_eq_ok_iff_made.mpr parses)]
      exact bind_eq_of_error stage _

/-- A parse fails when it does so early, or when its calls begin and one of them fails. -/
theorem parse_eq_error_iff_course {pipeline : Pipeline} {capabilities : Capabilities κ} {raw : String}
    {entry after : Invocation κ} {fault : Fault} :
    pipeline.parse capabilities raw entry = .error fault after ↔
      Early capabilities raw entry fault after ∨
        ∃ plan text start, Opens capabilities raw entry plan text start ∧
          Stops pipeline capabilities raw plan text start fault after := by
  constructor
  · intro failed
    rcases early_or_opens capabilities raw entry with ⟨raised, last, early⟩ | ⟨plan, text, start, opens⟩
    · rw [parse_eq_error_of_early early] at failed
      cases failed
      exact .inl early
    · rw [parse_eq_of_opens opens] at failed
      exact .inr ⟨plan, text, start, opens, proceed_eq_error_iff.mp failed⟩
  · rintro (early | ⟨plan, text, start, opens, stops⟩)
    · exact parse_eq_error_of_early early pipeline
    · rw [parse_eq_of_opens opens]
      exact proceed_eq_error_iff.mpr stops

/-- The calls that a parse made when it fails begin its plan, and the last of them failed. -/
theorem calls_of_stops {pipeline : Pipeline} {capabilities : Capabilities κ} {raw text : String} {plan : Plan κ}
    {start after : Invocation κ} {fault : Fault}
    (stops : Stops pipeline capabilities raw plan text start fault after) :
    ∃ earlier call document middle raised last,
      earlier ++ [call] <+: plan.calls capabilities.toProfile ∧
      Calls capabilities earlier (.source text) start document middle ∧
      Breaks capabilities call document middle raised last := by
  rw [Plan.calls_eq]
  cases stops with
  | @before earlier later hook _ _ _ _ split passed breaks =>
    refine ⟨_, _, _, _, _, _, ?_, passed, breaks⟩
    rw [Plan.before, split]
    simp
  | parser passed breaks =>
    refine ⟨_, _, _, _, _, _, ?_, passed, breaks⟩
    simp
  | @after earlier later hook _ _ _ _ _ _ _ _ passed parses split edited breaks =>
    have calls : Calls capabilities (plan.before capabilities.toProfile ++ .parse plan.parser :: earlier.map .after)
        (.source text) start _ _ :=
      calls_append_iff.mpr ⟨_, _, passed, .next parses edited⟩
    refine ⟨_, _, _, _, _, _, ?_, calls, breaks⟩
    rw [Plan.after, split]
    simp

end Polyglot.Pipeline
