import Polyglot.Proofs.Declared
import Polyglot.Proofs.Stages
import Polyglot.Script.Rules

/-!
# The calls of a parse

Which parser a parse runs and which hooks it calls is planned when it begins, from the
registry and the context of its options (`Planned`). The calls then follow each other as
planned (`Calls`): each is given what the call before made, and the options as that call
left them. Whatever a call does to the options, a parse that succeeds makes just the calls
that were planned, in their order (`parse_eq_ok_iff_calls`).
-/

namespace Polyglot.Pipeline

open Outcome Declared

variable {κ : Kit}

/-- The parser and the hooks of a parse. -/
structure Plan (κ : Kit) where
  parser : κ.Parser
  /-- The hooks that take part. -/
  hooks : List κ.Hook

/-- A call of a hook or a parser. -/
inductive Call (κ : Kit)
  | before (hook : κ.Hook)
  | parse (parser : κ.Parser)
  | after (hook : κ.Hook)

/-- What calls work on: a text that is yet to be parsed, or a text with its tree. -/
inductive Document
  | source (text : String)
  | parsed (parsed : Parsed)

/-- The calls of a plan: the hooks that declare the stage before the parse, the parser, and the
    hooks that declare the stage after it. -/
def Plan.calls (profile : Profile κ) (plan : Plan κ) : List (Call κ) :=
  (Dispatch.declaring profile .beforeParse plan.hooks).map .before ++
    .parse plan.parser :: (Dispatch.declaring profile .afterParse plan.hooks).map .after

/-- The plan of a parse that begins with a registry of bundles: its parser is the one that the
    registry has for the parser of the context, its hooks are those declared for the tree format
    of that parser, in the order of the declarations, whose scope applies to the context. With it
    stands the world in which the calls begin. -/
inductive Planned (profile : Profile κ) (bundles : List (Bundle κ)) (entry : Invocation κ) :
    Plan κ → World κ.State → Prop
  | intro {parser : κ.Parser} {hooks : List κ.Hook} {found supplied : World κ.State}
      (resolves : entry.options.registry.resolveParser profile entry.options.context.parser (entered entry) =
        .ok parser found)
      (named : profile.treeFormat parser ≠ "")
      (supplies : Supplied (hookSources (profile.treeFormat parser) bundles) found hooks supplied) :
      Planned profile bundles entry ⟨parser, Dispatch.inScope profile entry.options.context hooks⟩
        ((supplied.report [.resolvedHooks (profile.treeFormat parser) hooks.length]).report
          (Dispatch.selectionEvents profile entry.options.context hooks))

/-- What a call after the parse leaves: a tree that took the place of another is on record. -/
def settled (profile : Profile κ) (hook : κ.Hook) (edit : Edit) (after : Invocation κ) : Invocation κ :=
  match edit.replacement with
  | none => after
  | some _ => after.reported (.replaced (profile.hookName hook))

/-- One call: the document and the invocation that it is given, and those that it leaves. -/
inductive Made (capabilities : Capabilities κ) :
    Call κ → Document → Invocation κ → Document → Invocation κ → Prop
  | before {hook : κ.Hook} {text made : String} {before after : Invocation κ}
      (succeeded : capabilities.beforeParse hook text
        (before.reported (.running (capabilities.hookName hook) .beforeParse)) = .ok made after) :
      Made capabilities (.before hook) (.source text) before (.source made) after
  | parse {parser : κ.Parser} {text : String} {tree : Tree} {before : Invocation κ} {world : World κ.State}
      (succeeded : capabilities.parse parser text { before.options with committed := some text } before.world =
        .ok tree world) :
      Made capabilities (.parse parser) (.source text) before (.parsed ⟨text, tree⟩)
        ⟨{ before.options with committed := some text }, world⟩
  | after {hook : κ.Hook} {text : String} {tree : Tree} {edit : Edit} {before after : Invocation κ}
      (succeeded : capabilities.afterParse hook tree
        (before.reported (.running (capabilities.hookName hook) .afterParse)) = .ok edit after) :
      Made capabilities (.after hook) (.parsed ⟨text, tree⟩) before
        (.parsed ⟨text, edit.replacement.getD edit.tree⟩) (settled capabilities.toProfile hook edit after)

/-- Calls that follow each other, each on what the call before left. -/
inductive Calls (capabilities : Capabilities κ) :
    List (Call κ) → Document → Invocation κ → Document → Invocation κ → Prop
  | done {document : Document} {before : Invocation κ} : Calls capabilities [] document before document before
  | next {call : Call κ} {rest : List (Call κ)} {document made last : Document} {before middle after : Invocation κ}
      (head : Made capabilities call document before made middle)
      (others : Calls capabilities rest made middle last after) :
      Calls capabilities (call :: rest) document before last after

/-! ## The plan -/

theorem planned_iff {profile : Profile κ} {bundles : List (Bundle κ)} {entry : Invocation κ} {parser : κ.Parser}
    {hooks : List κ.Hook} {world : World κ.State} :
    Planned profile bundles entry ⟨parser, hooks⟩ world ↔
      ∃ found declared supplied,
        entry.options.registry.resolveParser profile entry.options.context.parser (entered entry) =
          .ok parser found ∧
        profile.treeFormat parser ≠ "" ∧
        Supplied (hookSources (profile.treeFormat parser) bundles) found declared supplied ∧
        hooks = Dispatch.inScope profile entry.options.context declared ∧
        world = (supplied.report [.resolvedHooks (profile.treeFormat parser) declared.length]).report
          (Dispatch.selectionEvents profile entry.options.context declared) := by
  constructor
  · rintro ⟨resolves, named, supplies⟩
    exact ⟨_, _, _, resolves, named, supplies, rfl, rfl⟩
  · rintro ⟨found, declared, supplied, resolves, named, supplies, rfl, rfl⟩
    exact .intro resolves named supplies

/-- A parse has one plan at most, and none of it is the work of hooks or parsers. -/
theorem planned_unique {profile : Profile κ} {bundles : List (Bundle κ)} {entry : Invocation κ}
    {plan other : Plan κ} {world begun : World κ.State} (planned : Planned profile bundles entry plan world)
    (again : Planned profile bundles entry other begun) : plan = other ∧ world = begun := by
  obtain ⟨resolves, _, supplies⟩ := planned
  obtain ⟨resolvesAgain, _, suppliesAgain⟩ := again
  rw [resolves] at resolvesAgain
  cases resolvesAgain
  have same := supplyAll_eq_ok_iff.mpr supplies
  rw [supplyAll_eq_ok_iff.mpr suppliesAgain] at same
  cases same
  exact ⟨rfl, rfl⟩

/-- What a parse finds and selects when it begins is its plan. -/
theorem gathers_iff_planned {profile : Profile κ} {bundles : List (Bundle κ)} {entry gathered : Invocation κ}
    {parser : κ.Parser} {hooks : List κ.Hook}
    (registered : entry.options.registry.plugins = bundles.map Bundle.plugin) :
    (∃ begun, enter profile entry = .ok parser begun ∧ gather profile parser begun = .ok hooks gathered) ↔
      ∃ world, Planned profile bundles entry ⟨parser, hooks⟩ world ∧ gathered = { entry with world } := by
  simp only [enter_eq_ok_iff, gather_eq_ok_iff, planned_iff]
  constructor
  · rintro ⟨_, ⟨found, resolves, rfl⟩, declared, _, gives, rfl, rfl⟩
    obtain ⟨named, supplied, supplies, rfl⟩ := (resolveHooks_eq_ok_iff registered).mp gives
    exact ⟨_, ⟨found, declared, supplied, resolves, named, supplies, rfl, rfl⟩, rfl⟩
  · rintro ⟨_, ⟨found, declared, supplied, resolves, named, supplies, rfl, rfl⟩, rfl⟩
    have gives := (resolveHooks_eq_ok_iff registered).mpr ⟨named, supplied, supplies, rfl⟩
    exact ⟨_, ⟨found, resolves, rfl⟩, declared, _, gives, rfl, rfl⟩

/-! ## One call -/

/-- A call before the parse hands on the text that the step of its hook makes. -/
theorem made_before_iff {capabilities : Capabilities κ} {hook : κ.Hook} {text : String} {last : Document}
    {before after : Invocation κ} :
    Made capabilities (.before hook) (.source text) before last after ↔
      ∃ made, last = .source made ∧ Dispatch.stepBefore capabilities text hook before = .ok made after := by
  rw [Dispatch.stepBefore, bind_eq_of_ok (report_eq ..)]
  constructor
  · rintro ⟨succeeded⟩
    exact ⟨_, rfl, succeeded⟩
  · rintro ⟨made, rfl, succeeded⟩
    exact .before succeeded

/-- A call after the parse keeps the text and hands on the tree that the step of its hook makes. -/
theorem made_after_iff {capabilities : Capabilities κ} {hook : κ.Hook} {text : String} {tree : Tree}
    {last : Document} {before after : Invocation κ} :
    Made capabilities (.after hook) (.parsed ⟨text, tree⟩) before last after ↔
      ∃ made, last = .parsed ⟨text, made⟩ ∧
        Dispatch.stepAfter capabilities tree hook before = .ok made after := by
  rw [Dispatch.stepAfter, bind_eq_of_ok (report_eq ..)]
  simp only [bind_eq_ok_iff]
  -- The replacement decides both on the tree and on the report of it.
  have settles (edit : Edit) (middle : Invocation κ) :
      (match edit.replacement with
        | none => pure edit.tree
        | some replacement => do
          Run.report (.replaced (capabilities.hookName hook))
          pure replacement : Run κ Tree) middle =
        .ok (edit.replacement.getD edit.tree) (settled capabilities.toProfile hook edit middle) := by
    unfold settled
    cases edit.replacement <;> rfl
  constructor
  · intro call
    cases call with
    | after succeeded => exact ⟨_, rfl, _, _, succeeded, settles ..⟩
  · rintro ⟨made, rfl, edit, middle, succeeded, rest⟩
    have same := (settles edit middle).symm.trans rest
    cases same
    exact .after succeeded

/-! ## Calls in order -/

theorem calls_nil_iff {capabilities : Capabilities κ} {document last : Document} {before after : Invocation κ} :
    Calls capabilities [] document before last after ↔ last = document ∧ after = before := by
  constructor
  · intro calls; cases calls; exact ⟨rfl, rfl⟩
  · rintro ⟨rfl, rfl⟩; exact .done

theorem calls_cons_iff {capabilities : Capabilities κ} {call : Call κ} {rest : List (Call κ)}
    {document last : Document} {before after : Invocation κ} :
    Calls capabilities (call :: rest) document before last after ↔
      ∃ made middle, Made capabilities call document before made middle ∧
        Calls capabilities rest made middle last after := by
  constructor
  · intro calls
    cases calls with
    | next head others => exact ⟨_, _, head, others⟩
  · rintro ⟨_, _, head, others⟩
    exact .next head others

theorem calls_append_iff {capabilities : Capabilities κ} {first second : List (Call κ)} {document last : Document}
    {before after : Invocation κ} :
    Calls capabilities (first ++ second) document before last after ↔
      ∃ made middle, Calls capabilities first document before made middle ∧
        Calls capabilities second made middle last after := by
  induction first generalizing document before with
  | nil =>
    simp only [List.nil_append, calls_nil_iff]
    constructor
    · intro calls; exact ⟨_, _, ⟨rfl, rfl⟩, calls⟩
    · rintro ⟨_, _, ⟨rfl, rfl⟩, calls⟩; exact calls
  | cons call rest ih =>
    simp only [List.cons_append, calls_cons_iff, ih]
    constructor
    · rintro ⟨next, between, head, made, middle, more, calls⟩
      exact ⟨made, middle, ⟨next, between, head, more⟩, calls⟩
    · rintro ⟨made, middle, ⟨next, between, head, more⟩, calls⟩
      exact ⟨next, between, head, made, middle, more, calls⟩

/-- Where each call hands on what a step makes, calls in order hand on what the steps make one
    after another. -/
theorem calls_map_iff {α : Type} {capabilities : Capabilities κ} {call : κ.Hook → Call κ}
    {document : α → Document} {step : α → κ.Hook → Run κ α}
    (steps : ∀ hook given last before after, Made capabilities (call hook) (document given) before last after ↔
      ∃ made, last = document made ∧ step given hook before = .ok made after)
    {hooks : List κ.Hook} {given : α} {last : Document} {before after : Invocation κ} :
    Calls capabilities (hooks.map call) (document given) before last after ↔
      ∃ made, last = document made ∧ hooks.foldlM step given before = .ok made after := by
  induction hooks generalizing given before with
  | nil =>
    rw [List.map_nil, calls_nil_iff]
    simp only [List.foldlM_nil, pure_eq_ok_iff]
    constructor
    · rintro ⟨rfl, rfl⟩; exact ⟨given, rfl, rfl, rfl⟩
    · rintro ⟨_, rfl, rfl, rfl⟩; exact ⟨rfl, rfl⟩
  | cons hook rest ih =>
    rw [List.map_cons, calls_cons_iff]
    simp only [List.foldlM_cons, bind_eq_ok_iff]
    constructor
    · rintro ⟨_, middle, head, others⟩
      obtain ⟨next, rfl, stepped⟩ := (steps ..).mp head
      obtain ⟨made, rfl, more⟩ := ih.mp others
      exact ⟨made, rfl, next, middle, stepped, more⟩
    · rintro ⟨made, rfl, next, middle, stepped, more⟩
      exact ⟨_, middle, (steps ..).mpr ⟨next, rfl, stepped⟩, ih.mpr ⟨made, rfl, more⟩⟩

theorem calls_before_iff {capabilities : Capabilities κ} {hooks : List κ.Hook} {text : String} {last : Document}
    {before after : Invocation κ} :
    Calls capabilities (hooks.map .before) (.source text) before last after ↔
      ∃ made, last = .source made ∧
        hooks.foldlM (Dispatch.stepBefore capabilities) text before = .ok made after :=
  calls_map_iff fun _ _ _ _ _ => made_before_iff

theorem calls_after_iff {capabilities : Capabilities κ} {hooks : List κ.Hook} {text : String} {tree : Tree}
    {last : Document} {before after : Invocation κ} :
    Calls capabilities (hooks.map .after) (.parsed ⟨text, tree⟩) before last after ↔
      ∃ made, last = .parsed ⟨text, made⟩ ∧
        hooks.foldlM (Dispatch.stepAfter capabilities) tree before = .ok made after :=
  calls_map_iff fun _ _ _ _ _ => made_after_iff

/-! ## A whole parse -/

/-- The calls of a plan are the stage before the parse, the parser, and the stage after it. -/
theorem calls_plan_iff {capabilities : Capabilities κ} {plan : Plan κ} {text : String} {parsed : Parsed}
    {before after : Invocation κ} :
    Calls capabilities (plan.calls capabilities.toProfile) (.source text) before (.parsed parsed) after ↔
      ∃ handed tree world,
        Dispatch.beforeParse capabilities plan.hooks text before = .ok parsed.text handed ∧
        capabilities.parse plan.parser parsed.text { handed.options with committed := some parsed.text }
          handed.world = .ok tree world ∧
        Dispatch.afterParse capabilities plan.hooks tree
          ⟨{ handed.options with committed := some parsed.text }, world⟩ = .ok parsed.tree after := by
  rw [Plan.calls, calls_append_iff]
  simp only [calls_before_iff, calls_cons_iff]
  constructor
  · rintro ⟨_, handed, ⟨made, rfl, stage⟩, _, _, call, others⟩
    cases call with
    | parse succeeded =>
      obtain ⟨_, same, last⟩ := calls_after_iff.mp others
      cases same
      exact ⟨handed, _, _, stage, succeeded, last⟩
  · rintro ⟨handed, tree, world, stage, succeeded, last⟩
    exact ⟨_, handed, ⟨parsed.text, rfl, stage⟩, _, _, .parse succeeded,
      calls_after_iff.mpr ⟨parsed.tree, rfl, last⟩⟩

/-- A parse that succeeds makes the calls of its plan, in their order, and no others; and the
    plan is had from what the parse begins with, whatever the calls do to the options. -/
theorem parse_eq_ok_iff_calls {pipeline : Pipeline} {capabilities : Capabilities κ} {raw : String}
    {bundles : List (Bundle κ)} {entry after : Invocation κ} {parsed : Parsed}
    (registered : entry.options.registry.plugins = bundles.map Bundle.plugin) :
    pipeline.parse capabilities raw entry = .ok parsed after ↔
      ∃ plan begun text processed last,
        Planned capabilities.toProfile bundles entry plan begun ∧
        (∀ other world, Planned capabilities.toProfile bundles entry other world → other = plan) ∧
        capabilities.preprocess plan.parser raw entry.options begun = .ok text processed ∧
        Calls capabilities (plan.calls capabilities.toProfile) (.source text) { entry with world := processed }
          (.parsed parsed) last ∧
        after = last.reported (.complete (capabilities.treeFormat plan.parser) plan.hooks.length) := by
  rw [parse_eq]
  simp only [bind_eq_ok_iff, approach_eq_ok_iff, runParser_eq_ok_iff, conclude_eq_ok_iff, calls_plan_iff]
  constructor
  · rintro ⟨ready, _, ⟨begun, gathered, preprocessed, world, handed, enters, gathers, preprocesses, stage, rfl⟩,
      tree, _, ⟨later, succeeded, rfl⟩, last, stageAfter, same, rfl⟩
    obtain ⟨started, planned, rfl⟩ := (gathers_iff_planned registered).mp ⟨begun, enters, gathers⟩
    rw [← same] at stage succeeded stageAfter
    refine ⟨⟨ready.parser, ready.hooks⟩, started, preprocessed, world, last, planned, ?_, preprocesses,
      ⟨handed, tree, later, stage, succeeded, stageAfter⟩, rfl⟩
    intro other _ again
    exact (planned_unique again planned).1
  · rintro ⟨plan, started, text, processed, last, planned, _, preprocesses,
      ⟨handed, tree, world, stage, succeeded, stageAfter⟩, rfl⟩
    obtain ⟨begun, enters, gathers⟩ := (gathers_iff_planned registered).mpr ⟨started, planned, rfl⟩
    exact ⟨⟨plan.parser, plan.hooks, parsed.text⟩, _,
      ⟨begun, _, text, processed, handed, enters, gathers, preprocesses, stage, rfl⟩,
      tree, _, ⟨world, succeeded, rfl⟩, last, stageAfter, rfl, rfl⟩

section
open Script

/-- A hook that takes all plugins and the name of the parser out of the options. -/
def clearing : ScriptHook :=
  ⟨.closure "clearing" (.ok .any) (some [.options .clearPlugins, .options (.setParser "")]) none, .any⟩

/-- A hook of one parser only. -/
def exclaiming : ScriptHook :=
  ⟨.closure "exclaiming" (.ok (.parser "words")) (some [.own (.append "!")]) (some []), .parser "words"⟩

def wordParser : ScriptParser := .scripted "p/words" { treeFormat := "words-ast", parse := .echo "k" }

def words : Bundle kit :=
  ⟨"p", [.hook "words-ast" clearing, .parser "words" wordParser, .hook "words-ast" exclaiming]⟩

def wordEntry : Invocation kit := ⟨.new ⟨[words.plugin]⟩ "words", { state := {} }⟩

theorem words_planned : ∃ begun,
    Planned capabilities.toProfile [words] wordEntry ⟨wordParser, [clearing, exclaiming]⟩ begun := by
  have supplies (found : World Journal) :
      Supplied (hookSources "words-ast" [words]) found [clearing, exclaiming] found := supplyAll_eq_ok_iff.mp rfl
  have named : "words-ast" ≠ "" := by decide
  have resolves : wordEntry.options.registry.resolveParser capabilities.toProfile "words" (entered wordEntry) =
      .ok wordParser _ := rfl
  exact ⟨_, .intro resolves named (supplies _)⟩

/-- The second hook is called at both stages, although the first left nothing in the options
    that it could be found by. -/
theorem calls_despite_clearing :
    wordEntry.options.registry.plugins = [words].map Bundle.plugin ∧
      ∃ parsed after, Pipeline.parse {} capabilities "a" wordEntry = .ok parsed after ∧
        after.options.registry.plugins = [] ∧ after.options.context.parser = "" ∧
        ∃ text start last, Calls capabilities
          [.before clearing, .before exclaiming, .parse wordParser, .after exclaiming] (.source text) start
          (.parsed parsed) last := by
  have registered : wordEntry.options.registry.plugins = [words].map Bundle.plugin := rfl
  have succeeds : ∃ parsed after, Pipeline.parse {} capabilities "a" wordEntry = .ok parsed after ∧
      after.options.registry.plugins = [] ∧ after.options.context.parser = "" := ⟨_, _, rfl, rfl, rfl⟩
  obtain ⟨parsed, after, whole, cleared, renamed⟩ := succeeds
  obtain ⟨plan, _, text, _, last, _, only, _, calls, _⟩ := (parse_eq_ok_iff_calls registered).mp whole
  obtain ⟨_, planned⟩ := words_planned
  have same := only _ _ planned
  have listed : Plan.calls capabilities.toProfile ⟨wordParser, [clearing, exclaiming]⟩ =
      [.before clearing, .before exclaiming, .parse wordParser, .after exclaiming] := rfl
  rw [← same, listed] at calls
  exact ⟨registered, parsed, after, whole, cleared, renamed, text, _, last, calls⟩

end

end Polyglot.Pipeline
