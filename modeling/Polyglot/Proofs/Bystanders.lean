import Polyglot.Proofs.Abreast
import Polyglot.Proofs.Winner

/-!
# Bystanders

A plugin has no part in a parse when it has no parser of the name that is asked for, no printer of the tree
format of that parser, and for this format no hooks but such as are not called (`Bystander`). Bystanders
may stand at any places among the plugins: parsing and formatting end as they end without them, and leave
the same options but for the registry (`same_with_bystanders`). What the hooks of bystanders would
do makes no difference. What the other plugins do must look neither at the registry nor at
what building the hooks of bystanders leaves in the world (`Blind`).
-/

namespace Polyglot.Pipeline

open Outcome Declared Registry

variable {κ : Kit} {σ α : Type}

/-- A list, and the same list with further elements at any places. -/
inductive Interspersed (further : α → Prop) : List α → List α → Prop
  | nil : Interspersed further [] []
  | keep (element : α) {elements more : List α} (others : Interspersed further elements more) :
      Interspersed further (element :: elements) (element :: more)
  | insert {element : α} (inserted : further element) {elements more : List α}
      (others : Interspersed further elements more) : Interspersed further elements (element :: more)

/-- Which worlds look the same to plugins. What was reported is not to be seen. -/
structure Sight (σ : Type) where
  alike : World σ → World σ → Prop
  report {plain other : World σ} (worlds : alike plain other) (events more : List Event) :
    alike (plain.report events) (other.report more)

/-- The invocations differ in their registries only, which are these, and in worlds that look the same. -/
structure Sight.Beside (sight : Sight κ.State) (registry crowded : Registry κ) (plain other : Invocation κ) : Prop where
  registry : plain.options.registry = registry
  options : other.options = { plain.options with registry := crowded }
  worlds : sight.alike plain.world other.world

/-- A plugin has the capability under some name, and gives it in some world. -/
def Provides (lookup : String → Option (Deferred σ α)) (value : α) : Prop :=
  ∃ name deferred before after, lookup name = some deferred ∧ deferred.resolve before = .ok value after

/-- The plugin has the hook among others for some tree format. -/
def ProvidesHook (plugin : Plugin κ) (hook : κ.Hook) : Prop := ∃ hooks, Provides plugin.hooks? hooks ∧ hook ∈ hooks

/-- The plugin and its capabilities see nothing that tells worlds apart which look the same, and its capabilities
    neither read the registry nor write it. -/
structure Blind (sight : Sight κ.State) (capabilities : Capabilities κ) (plugin : Plugin κ) : Prop where
  parser {name : String} {deferred : Deferred κ.State κ.Parser} (held : plugin.parser? name = some deferred) :
    Matches sight.alike deferred.resolve deferred.resolve
  printer {treeFormat : String} {deferred : Deferred κ.State κ.Printer}
    (held : plugin.printer? treeFormat = some deferred) : Matches sight.alike deferred.resolve deferred.resolve
  hooks {treeFormat : String} {deferred : Deferred κ.State (List κ.Hook)}
    (held : plugin.hooks? treeFormat = some deferred) : Matches sight.alike deferred.resolve deferred.resolve
  preprocess {parser : κ.Parser} (provides : Provides plugin.parser? parser) (raw : String) (options : Options κ)
    (registry : Registry κ) :
    Matches sight.alike (capabilities.preprocess parser raw options)
      (capabilities.preprocess parser raw { options with registry })
  parse {parser : κ.Parser} (provides : Provides plugin.parser? parser) (text : String) (options : Options κ)
    (registry : Registry κ) :
    Matches sight.alike (capabilities.parse parser text options)
      (capabilities.parse parser text { options with registry })
  print {printer : κ.Printer} (provides : Provides plugin.printer? printer) (tree : Tree) (options : Options κ)
    (registry : Registry κ) :
    Matches sight.alike (capabilities.print printer tree options)
      (capabilities.print printer tree { options with registry })
  beforeParse {hook : κ.Hook} (provides : ProvidesHook plugin hook) (text : String) (registry crowded : Registry κ) :
    Matches (sight.Beside registry crowded) (capabilities.beforeParse hook text) (capabilities.beforeParse hook text)
  afterParse {hook : κ.Hook} (provides : ProvidesHook plugin hook) (tree : Tree) (registry crowded : Registry κ) :
    Matches (sight.Beside registry crowded) (capabilities.afterParse hook tree) (capabilities.afterParse hook tree)

/-- A hook that is not called in a parse that begins in the context: it is out of scope, or declares no stage. -/
def Idle (profile : Profile κ) (context : Context) (hook : κ.Hook) : Prop :=
  (profile.hookScope hook).applies context = false ∨ ∀ stage, profile.declares hook stage = false

def AllIdle (profile : Profile κ) (context : Context) (hooks : List κ.Hook) : Prop :=
  ∀ hook ∈ hooks, Idle profile context hook

/-- The action succeeds wherever it runs, with a value of this kind, and none of what it does is to be seen. -/
def Unseen (sight : Sight σ) (kind : α → Prop) (action : Action σ α) : Prop :=
  ∀ plain other, sight.alike plain other →
    ∃ value after, action other = .ok value after ∧ sight.alike plain after ∧ kind value

/-- The plugin has no part in a parse of this entry, nor in the printing after it. -/
structure Bystander (sight : Sight κ.State) (profile : Profile κ) (entry : Invocation κ) (plugin : Plugin κ) :
    Prop where
  parser : plugin.parser? entry.options.context.parser = none
  printer {parser : κ.Parser} {found : World κ.State}
    (resolves : entry.options.registry.resolveParser profile entry.options.context.parser (entered entry) =
      .ok parser found) : plugin.printer? (profile.treeFormat parser) = none
  hooks {parser : κ.Parser} {found : World κ.State}
    (resolves : entry.options.registry.resolveParser profile entry.options.context.parser (entered entry) =
      .ok parser found) :
    Unseen sight (AllIdle profile entry.options.context) (ownHooks (profile.treeFormat parser) plugin)

/-! ## Further elements -/

namespace Interspersed

variable {further : α → Prop} {elements more : List α}

theorem append_left (interspersed : Interspersed further elements more) (shared : List α) :
    Interspersed further (shared ++ elements) (shared ++ more) := by
  induction shared with
  | nil => exact interspersed
  | cons head _ ih => exact .keep head ih

theorem insert_all (interspersed : Interspersed further elements more) {extra : List α}
    (inserted : ∀ element ∈ extra, further element) : Interspersed further elements (extra ++ more) := by
  induction extra with
  | nil => exact interspersed
  | cons head rest ih =>
    have others := ih fun element member => inserted element (List.mem_cons_of_mem head member)
    exact .insert (inserted head List.mem_cons_self) others

/-- A filter that lets none of the further elements pass does not tell whether they are there. -/
theorem filter_eq (interspersed : Interspersed further elements more) {p : α → Bool}
    (rejected : ∀ element, further element → p element = false) : more.filter p = elements.filter p := by
  induction interspersed with
  | nil => rfl
  | keep element _ ih => rw [List.filter_cons, List.filter_cons, ih]
  | insert inserted _ ih => rw [List.filter_cons, rejected _ inserted, if_neg Bool.false_ne_true, ih]

theorem last?_eq {further : Plugin κ → Prop} {registry crowded : Registry κ}
    (interspersed : Interspersed further registry.plugins crowded.plugins) {p : Plugin κ → Bool}
    (rejected : ∀ plugin, further plugin → p plugin = false) : crowded.last? p = registry.last? p := by
  simp only [Registry.last?, ← List.head?_filter, List.filter_reverse, interspersed.filter_eq rejected]

end Interspersed

/-- The hooks that are to run at a stage are the same with idle ones among them. -/
theorem declaring_inScope_eq {profile : Profile κ} {context : Context} {hooks others : List κ.Hook}
    (interspersed : Interspersed (Idle profile context) hooks others) (stage : Stage) :
    Dispatch.declaring profile stage (Dispatch.inScope profile context others) =
      Dispatch.declaring profile stage (Dispatch.inScope profile context hooks) := by
  simp only [Dispatch.declaring, Dispatch.inScope, List.filter_filter]
  refine interspersed.filter_eq ?_
  rintro hook (apart | silent)
  · rw [apart, Bool.and_false]
  · rw [silent, Bool.false_and]

/-! ## Resolving -/

theorem Sight.matches_report (sight : Sight σ) (event other : Event) :
    Matches sight.alike (Action.report event) (Action.report other) :=
  fun _ _ worlds => .ok (sight.report worlds [event] [other])

theorem rel_self {related : α → α → Prop} {held : Option α}
    (reflexive : ∀ value, held = some value → related value value) : Option.Rel related held held := by
  cases held with
  | none => exact .none
  | some value => exact .some (reflexive value rfl)

theorem give_eq_ok {held : Option (Deferred σ α)} {lost : Fault} {event : Deferred σ α → α → Event}
    {before after : World σ} {value : α} (gives : give held lost event before = .ok value after) :
    ∃ deferred resolved, held = some deferred ∧ deferred.resolve before = .ok value resolved := by
  cases held with
  | none => cases gives
  | some deferred =>
    obtain ⟨_, resolved, succeeded, rest⟩ := bind_eq_ok_iff.mp gives
    cases rest
    exact ⟨deferred, resolved, rfl, succeeded⟩

theorem matches_ofExcept {alike : World σ → World σ → Prop} {β : Type} {outcome : Except Fault α}
    {rest more : α → Action σ β} (others : ∀ value, outcome = .ok value → Matches alike (rest value) (more value)) :
    Matches alike (Action.ofExcept outcome >>= rest) (Action.ofExcept outcome >>= more) := by
  cases outcome with
  | error fault => exact matches_throw fault
  | ok value => exact others value rfl

theorem ofExcept_bind_eq_ok {β : Type} {outcome : Except Fault α} {rest : α → Action σ β} {before after : World σ}
    {result : β} (succeeded : (Action.ofExcept outcome >>= rest) before = .ok result after) :
    ∃ value, outcome = .ok value ∧ rest value before = .ok result after := by
  cases outcome with
  | error fault => cases succeeded
  | ok value => exact ⟨value, rfl, succeeded⟩

/-- A plugin that is found is one of the registry. -/
theorem mem_of_found {registry : Registry κ} {p : Plugin κ → Bool} {name : String} {required unknown : Fault}
    {plugin : Plugin κ}
    (found : (if name = "" then .error required
      else match registry.last? p with | some plugin => .ok plugin | none => .error unknown : Except Fault _) =
        .ok plugin) : plugin ∈ registry.plugins := by
  split at found
  · cases found
  · split at found
    · next search =>
      cases found
      exact List.mem_reverse.mp (List.mem_of_find?_eq_some search)
    · cases found

section
variable {sight : Sight κ.State} {capabilities : Capabilities κ} {registry crowded : Registry κ}
  {further : Plugin κ → Prop}

theorem provides_of_resolveParser {profile : Profile κ} {name : String} {before after : World κ.State}
    {parser : κ.Parser} (resolves : registry.resolveParser profile name before = .ok parser after) :
    ∃ plugin ∈ registry.plugins, Provides plugin.parser? parser := by
  rw [resolveParser_eq_give] at resolves
  obtain ⟨plugin, found, gives⟩ := ofExcept_bind_eq_ok resolves
  obtain ⟨deferred, resolved, held, succeeded⟩ := give_eq_ok gives
  exact ⟨plugin, mem_of_found found, name, deferred, before, resolved, held, succeeded⟩

theorem provides_of_resolvePrinter {treeFormat : String} {before after : World κ.State} {printer : κ.Printer}
    (resolves : registry.resolvePrinter treeFormat before = .ok printer after) :
    ∃ plugin ∈ registry.plugins, Provides plugin.printer? printer := by
  rw [resolvePrinter_eq_give] at resolves
  obtain ⟨plugin, found, gives⟩ := ofExcept_bind_eq_ok resolves
  obtain ⟨deferred, resolved, held, succeeded⟩ := give_eq_ok gives
  exact ⟨plugin, mem_of_found found, treeFormat, deferred, before, resolved, held, succeeded⟩

theorem matches_resolveParser (interspersed : Interspersed further registry.plugins crowded.plugins) {name : String}
    (apart : ∀ plugin, further plugin → plugin.parser? name = none)
    (blind : ∀ plugin ∈ registry.plugins, Blind sight capabilities plugin) (profile : Profile κ) :
    Matches sight.alike (registry.resolveParser profile name) (crowded.resolveParser profile name) := by
  have same : crowded.findParser name = registry.findParser name := by
    unfold findParser
    rw [interspersed.last?_eq fun plugin inserted => by rw [Plugin.hasParser, apart plugin inserted]; rfl]
  rw [resolveParser_eq_give, resolveParser_eq_give, same]
  refine matches_ofExcept fun plugin found => matches_give sight.matches_report ?_ _ _ _
  exact rel_self fun _ held => (blind plugin (mem_of_found found)).parser held

theorem matches_resolvePrinter (interspersed : Interspersed further registry.plugins crowded.plugins)
    {treeFormat : String} (apart : ∀ plugin, further plugin → plugin.printer? treeFormat = none)
    (blind : ∀ plugin ∈ registry.plugins, Blind sight capabilities plugin) :
    Matches sight.alike (registry.resolvePrinter treeFormat) (crowded.resolvePrinter treeFormat) := by
  have same : crowded.findPrinter treeFormat = registry.findPrinter treeFormat := by
    unfold findPrinter
    rw [interspersed.last?_eq fun plugin inserted => by rw [Plugin.hasPrinter, apart plugin inserted]; rfl]
  rw [resolvePrinter_eq_give, resolvePrinter_eq_give, same]
  refine matches_ofExcept fun plugin found => matches_give sight.matches_report ?_ _ _ _
  exact rel_self fun _ held => (blind plugin (mem_of_found found)).printer held

end

/-! ## Hooks -/

/-- Hooks of these plugins, and the same with idle ones among them. -/
structure Alongside (profile : Profile κ) (context : Context) (plugins : List (Plugin κ))
    (hooks others : List κ.Hook) : Prop where
  provided : ∀ hook ∈ hooks, ∃ plugin ∈ plugins, ProvidesHook plugin hook
  interspersed : Interspersed (Idle profile context) hooks others

section
variable {sight : Sight κ.State} {capabilities : Capabilities κ} {profile : Profile κ} {context : Context}
  {treeFormat : String}

theorem providesHook_of_ownHooks {plugin : Plugin κ} {before after : World κ.State} {hooks : List κ.Hook}
    (succeeded : ownHooks treeFormat plugin before = .ok hooks after) :
    ∀ hook ∈ hooks, ProvidesHook plugin hook := by
  unfold ownHooks at succeeded
  cases held : plugin.hooks? treeFormat with
  | none =>
    rw [held] at succeeded
    cases succeeded
    exact fun hook member => absurd member List.not_mem_nil
  | some deferred =>
    rw [held] at succeeded
    exact fun hook member => ⟨hooks, ⟨treeFormat, deferred, before, after, held, succeeded⟩, member⟩

/-- Plugin by plugin, hooks are had of the same plugins, and idle ones of the bystanders. -/
theorem akin_mapM_ownHooks {further : Plugin κ → Prop} {plugins crowd : List (Plugin κ)}
    (interspersed : Interspersed further plugins crowd)
    (unseen : ∀ plugin, further plugin → Unseen sight (AllIdle profile context) (ownHooks treeFormat plugin))
    (blind : ∀ plugin ∈ plugins, Blind sight capabilities plugin) {before begun : World κ.State}
    (worlds : sight.alike before begun) :
    Akin sight.alike (fun lists others => Alongside profile context plugins lists.flatten others.flatten)
      (plugins.mapM (ownHooks treeFormat) before) (crowd.mapM (ownHooks treeFormat) begun) := by
  induction interspersed generalizing before begun with
  | nil => exact .ok ⟨fun _ member => absurd member List.not_mem_nil, .nil⟩ worlds
  | keep plugin _ ih =>
    rw [List.mapM_cons, List.mapM_cons]
    have own : Matches sight.alike (ownHooks treeFormat plugin) (ownHooks treeFormat plugin) :=
      matches_ownHooks (rel_self fun _ held => (blind plugin List.mem_cons_self).hooks held)
    refine (agree_iff_akin.mp (own before begun worlds)).bind ?_
    rintro hooks _ middle reached succeeded rfl worlds
    refine (ih (fun plugin member => blind plugin (List.mem_cons_of_mem _ member)) worlds).bind ?_
    rintro lists others last ended _ ⟨provided, interspersed⟩ worlds
    refine .ok ⟨fun hook member => ?_, interspersed.append_left hooks⟩ worlds
    rcases List.mem_append.mp member with first | later
    · exact ⟨plugin, List.mem_cons_self, providesHook_of_ownHooks succeeded hook first⟩
    · obtain ⟨owner, registered, provides⟩ := provided hook later
      exact ⟨owner, List.mem_cons_of_mem _ registered, provides⟩
  | insert inserted _ ih =>
    -- The bystander goes first, on its side only; then both sides are abreast again.
    obtain ⟨idle, after, succeeded, seen, allIdle⟩ := unseen _ inserted before begun worlds
    rw [List.mapM_cons, bind_eq_of_ok succeeded, ← bind_pure (List.mapM _ _)]
    refine (ih blind seen).bind ?_
    rintro lists others last ended _ ⟨provided, interspersed⟩ worlds
    exact .ok ⟨provided, interspersed.insert_all allIdle⟩ worlds

theorem akin_resolveHooks {further : Plugin κ → Prop} {registry crowded : Registry κ}
    (interspersed : Interspersed further registry.plugins crowded.plugins)
    (unseen : ∀ plugin, further plugin → Unseen sight (AllIdle profile context) (ownHooks treeFormat plugin))
    (blind : ∀ plugin ∈ registry.plugins, Blind sight capabilities plugin) {before begun : World κ.State}
    (worlds : sight.alike before begun) :
    Akin sight.alike (Alongside profile context registry.plugins) (registry.resolveHooks treeFormat before)
      (crowded.resolveHooks treeFormat begun) := by
  unfold resolveHooks
  split
  · exact .error worlds
  · refine (akin_mapM_ownHooks interspersed unseen blind worlds).bind ?_
    intro lists others _ _ _ alongside worlds
    exact .ok alongside (sight.report worlds _ _)

end

/-! ## Declared bystanders -/

section
variable {sight : Sight κ.State} {profile : Profile κ} {context : Context}

theorem unseen_eager {hook : κ.Hook} (idle : Idle profile context hook) :
    Unseen sight (AllIdle profile context) (HookSource.eager hook).supply := by
  intro plain other worlds
  refine ⟨[hook], other, rfl, worlds, ?_⟩
  rintro _ member
  rwa [List.mem_singleton.mp member]

theorem unseen_supplyAll {sources : List (HookSource κ)}
    (unseen : ∀ source ∈ sources, Unseen sight (AllIdle profile context) source.supply) :
    Unseen sight (AllIdle profile context) (supplyAll sources) := by
  induction sources with
  | nil => exact fun _ other worlds => ⟨[], other, rfl, worlds, fun _ member => absurd member List.not_mem_nil⟩
  | cons source rest ih =>
    intro plain other worlds
    obtain ⟨first, middle, succeeded, seen, firstIdle⟩ := unseen source List.mem_cons_self plain other worlds
    obtain ⟨others, after, supplied, seen, othersIdle⟩ :=
      ih (fun source member => unseen source (List.mem_cons_of_mem _ member)) plain middle seen
    refine ⟨first ++ others, after, ?_, seen, ?_⟩
    · rw [supplyAll_cons, bind_eq_of_ok succeeded, bind_eq_of_ok supplied]
      rfl
    · intro hook member
      exact (List.mem_append.mp member).elim (firstIdle hook) (othersIdle hook)

theorem LastDeclared.lookup_plugin_eq_none {lookup : Plugin κ → Option (Deferred κ.State α)}
    {source? : Declaration κ → Option (Source κ.State α)} (last : LastDeclared lookup source?) {bundle : Bundle κ}
    (none : ∀ declaration ∈ bundle.declarations, source? declaration = none) : lookup bundle.plugin = .none := by
  rw [last.lookup_plugin, List.filterMap_eq_nil_iff.mpr none]
  rfl

/-- A bystander is what declares no such parser and no such printer, and whose hooks for the tree format
    are idle, each on its own or built by a factory that succeeds. -/
theorem bystander_of_declarations {entry : Invocation κ} {bundle : Bundle κ}
    (parser : ∀ declaration ∈ bundle.declarations, parserSource? entry.options.context.parser declaration = none)
    (others : ∀ parser found,
      entry.options.registry.resolveParser profile entry.options.context.parser (entered entry) = .ok parser found →
      ∀ declaration ∈ bundle.declarations, printerSource? (profile.treeFormat parser) declaration = none ∧
        ∀ source, sourceOf? (profile.treeFormat parser) declaration = some source →
          Unseen sight (AllIdle profile entry.options.context) source.supply) :
    Bystander sight profile entry bundle.plugin where
  parser := LastDeclared.lookup_plugin_eq_none (parser_lastDeclared _) parser
  printer resolves := LastDeclared.lookup_plugin_eq_none (printer_lastDeclared _) fun declaration declared =>
    (others _ _ resolves declaration declared).1
  hooks resolves := by
    rw [ownHooks_plugin]
    refine unseen_supplyAll fun source member => ?_
    obtain ⟨declaration, declared, found⟩ := List.mem_filterMap.mp member
    exact (others _ _ resolves declaration declared).2 source found

end

/-! ## Parsing and formatting -/

section
variable {sight : Sight κ.State} {capabilities : Capabilities κ} {registry crowded : Registry κ}

theorem Sight.Beside.akin_ofAction {β : Type} {related : α → β → Prop} {action : Options κ → Action κ.State α}
    {other : Options κ → Action κ.State β} {plain crowd : Invocation κ}
    (beside : sight.Beside registry crowded plain crowd)
    (akin : Akin sight.alike related (action plain.options plain.world)
      (other { plain.options with registry := crowded } crowd.world)) :
    Akin (sight.Beside registry crowded) related (Run.ofAction action plain) (Run.ofAction other crowd) := by
  rw [← beside.options] at akin
  exact akin.ofAction fun _ _ worlds => ⟨beside.registry, beside.options, worlds⟩

theorem matches_ofAction {action other : Options κ → Action κ.State α}
    (same : ∀ options, options.registry = registry →
      Matches sight.alike (action options) (other { options with registry := crowded })) :
    Matches (sight.Beside registry crowded) (Run.ofAction action) (Run.ofAction other) := by
  intro plain crowd beside
  have agree := same plain.options beside.registry _ _ beside.worlds
  exact agree_iff_akin.mpr (beside.akin_ofAction (agree_iff_akin.mp agree))

theorem lenient_beside (sight : Sight κ.State) (registry crowded : Registry κ) :
    Lenient (sight.Beside registry crowded) where
  report event other := matches_ofAction fun _ _ => sight.matches_report event other
  commit text := by
    rintro plain ⟨options, world⟩ ⟨registry, rfl, worlds⟩
    exact .ok ⟨registry, rfl, worlds⟩

variable {entry : Invocation κ}

theorem akin_gather {profile : Profile κ} {parser : κ.Parser} {context : Context} {further : Plugin κ → Prop}
    (interspersed : Interspersed further registry.plugins crowded.plugins)
    (unseen : ∀ plugin, further plugin →
      Unseen sight (AllIdle profile context) (ownHooks (profile.treeFormat parser) plugin))
    (blind : ∀ plugin ∈ registry.plugins, Blind sight capabilities plugin) {plain crowd : Invocation κ}
    (beside : sight.Beside registry crowded plain crowd) (within : plain.options.context = context) :
    Akin (sight.Beside registry crowded)
      (fun hooks others => (∀ hook ∈ hooks, ∃ plugin ∈ registry.plugins, ProvidesHook plugin hook) ∧
        ∀ stage, Dispatch.declaring profile stage others = Dispatch.declaring profile stage hooks)
      (gather profile parser plain) (gather profile parser crowd) := by
  have resolving := akin_resolveHooks interspersed unseen blind beside.worlds
  rw [← beside.registry] at resolving
  refine Akin.bind (beside.akin_ofAction resolving) ?_
  rintro resolved others middle reached succeeded ⟨provided, mingled⟩ states
  rw [beside.registry] at provided
  rw [← within, ← (keeps_options_ofAction _).of_ok succeeded] at mingled
  have selected := sight.report states.worlds
  refine states.akin_ofAction (.ok ⟨fun hook member => ?_, declaring_inScope_eq mingled⟩ (selected _ _))
  exact provided hook (List.mem_filter.mp member).1

/-- The parser, the hooks and the text of a parse, and what is done with them. -/
def opening (capabilities : Capabilities κ) (raw : String) (rest : κ.Parser → List κ.Hook → String → Run κ α) :
    Run κ α := do
  let parser ← enter capabilities.toProfile
  let hooks ← gather capabilities.toProfile parser
  let text ← Run.ofAction (capabilities.preprocess parser raw)
  rest parser hooks text

/-- Beside bystanders a parse has the same parser and the same text, and hooks of which the same are to be
    called. -/
theorem agree_opening {rest : κ.Parser → List κ.Hook → String → Run κ α} {crowd : Invocation κ}
    (interspersed : Interspersed (Bystander sight capabilities.toProfile entry) entry.options.registry.plugins
      crowded.plugins)
    (blind : ∀ plugin ∈ entry.options.registry.plugins, Blind sight capabilities plugin)
    (beside : sight.Beside entry.options.registry crowded entry crowd) (raw : String)
    (others : ∀ parser found hooks more text,
      entry.options.registry.resolveParser capabilities.toProfile entry.options.context.parser (entered entry) =
        .ok parser found →
      (∀ hook ∈ hooks, ∃ plugin ∈ entry.options.registry.plugins, ProvidesHook plugin hook) →
      (∀ stage, Dispatch.declaring capabilities.toProfile stage more =
        Dispatch.declaring capabilities.toProfile stage hooks) →
      Matches (sight.Beside entry.options.registry crowded) (rest parser hooks text) (rest parser more text)) :
    Agree (sight.Beside entry.options.registry crowded) (opening capabilities raw rest entry)
      (opening capabilities raw rest crowd) := by
  have apart (plugin : Plugin κ) (bystander : Bystander sight capabilities.toProfile entry plugin) :
      plugin.parser? entry.options.context.parser = none := bystander.parser
  have resolving := (sight.matches_report (.entered entry.options.context) (.entered entry.options.context)).bind
    fun _ => matches_resolveParser interspersed apart blind capabilities.toProfile
  have entering : Akin (sight.Beside entry.options.registry crowded) Eq (enter capabilities.toProfile entry)
      (enter capabilities.toProfile crowd) := beside.akin_ofAction (agree_iff_akin.mp (resolving _ _ beside.worlds))
  refine agree_iff_akin.mpr (Akin.bind entering ?_)
  rintro parser _ begun reached enters rfl states
  obtain ⟨found, resolves, rfl⟩ := enter_eq_ok_iff.mp enters
  have gathering := akin_gather interspersed (fun plugin bystander => bystander.hooks resolves) blind states rfl
  refine Akin.bind gathering ?_
  rintro hooks more gathered joined _ ⟨provided, declared⟩ states
  obtain ⟨owner, registered, provides⟩ := provides_of_resolveParser resolves
  have preprocessing : Matches (sight.Beside entry.options.registry crowded)
      (Run.ofAction (capabilities.preprocess parser raw)) (Run.ofAction (capabilities.preprocess parser raw)) :=
    matches_ofAction fun options _ => (blind owner registered).preprocess provides raw options crowded
  refine Akin.bind (agree_iff_akin.mp (preprocessing _ _ states)) ?_
  rintro text _ processed last _ rfl states
  exact agree_iff_akin.mp (others parser found hooks more text resolves provided declared _ _ states)

/-- From the first call on, a parse goes on beside bystanders as it does without them. -/
theorem matches_proceed_beside (blind : ∀ plugin ∈ registry.plugins, Blind sight capabilities plugin)
    {parser : κ.Parser} (parserOf : ∃ plugin ∈ registry.plugins, Provides plugin.parser? parser)
    {hooks more : List κ.Hook} (hooksOf : ∀ hook ∈ hooks, ∃ plugin ∈ registry.plugins, ProvidesHook plugin hook)
    (declared : ∀ stage, Dispatch.declaring capabilities.toProfile stage more =
      Dispatch.declaring capabilities.toProfile stage hooks) (pipeline : Pipeline) (raw text : String) :
    Matches (sight.Beside registry crowded) (pipeline.proceed capabilities raw ⟨parser, hooks⟩ text)
      (pipeline.proceed capabilities raw ⟨parser, more⟩ text) := by
  refine (lenient_beside sight registry crowded).proceed declared (fun made => ?_) ?_ ?_ pipeline raw text
  · obtain ⟨owner, registered, provides⟩ := parserOf
    exact matches_ofAction fun options _ => (blind owner registered).parse provides made options crowded
  · intro hook member made
    obtain ⟨owner, registered, provides⟩ := hooksOf hook member
    exact (blind owner registered).beforeParse provides made registry crowded
  · intro hook member tree
    obtain ⟨owner, registered, provides⟩ := hooksOf hook member
    exact (blind owner registered).afterParse provides tree registry crowded

theorem matches_printOn {further : Plugin κ → Prop}
    (interspersed : Interspersed further registry.plugins crowded.plugins) {treeFormat : String}
    (apart : ∀ plugin, further plugin → plugin.printer? treeFormat = none)
    (blind : ∀ plugin ∈ registry.plugins, Blind sight capabilities plugin) (tree : Tree) :
    Matches (sight.Beside registry crowded) (Run.ofAction (printOn capabilities treeFormat tree))
      (Run.ofAction (printOn capabilities treeFormat tree)) := by
  refine matches_ofAction fun options own before begun worlds => ?_
  subst own
  have resolving := matches_resolvePrinter interspersed apart blind before begun worlds
  refine agree_iff_akin.mpr (Akin.bind (agree_iff_akin.mp resolving) ?_)
  rintro printer _ middle reached resolves rfl worlds
  obtain ⟨owner, registered, provides⟩ := provides_of_resolvePrinter resolves
  exact agree_iff_akin.mp ((blind owner registered).print provides tree options crowded middle reached worlds)

/-- Bystanders make no difference, wherever they stand among the plugins and whatever their hooks would do:
    parsing and formatting end with the same text and tree, the same output or the same fault, and leave
    the same options but for the registry, which is left as it was on both sides. -/
theorem same_with_bystanders {begun : World κ.State}
    (interspersed : Interspersed (Bystander sight capabilities.toProfile entry) entry.options.registry.plugins
      crowded.plugins)
    (blind : ∀ plugin ∈ entry.options.registry.plugins, Blind sight capabilities plugin)
    (worlds : sight.alike entry.world begun) (pipeline : Pipeline) (raw : String) :
    Agree (sight.Beside entry.options.registry crowded) (pipeline.parse capabilities raw entry)
      (pipeline.parse capabilities raw ⟨{ entry.options with registry := crowded }, begun⟩) ∧
    Agree (sight.Beside entry.options.registry crowded) (pipeline.format capabilities raw entry)
      (pipeline.format capabilities raw ⟨{ entry.options with registry := crowded }, begun⟩) := by
  have beside : sight.Beside entry.options.registry crowded entry
      ⟨{ entry.options with registry := crowded }, begun⟩ := ⟨rfl, rfl, worlds⟩
  rw [parse_eq_proceed, format_eq_proceed]
  constructor
  · refine agree_opening interspersed blind beside raw ?_
    intro parser found hooks more text resolves provided declared
    exact matches_proceed_beside blind (provides_of_resolveParser resolves) provided declared pipeline raw text
  · refine agree_opening interspersed blind beside raw ?_
    intro parser found hooks more text resolves provided declared
    refine (matches_proceed_beside blind (provides_of_resolveParser resolves) provided declared pipeline raw text).bind
      fun parsed => ?_
    exact matches_printOn interspersed (fun plugin bystander => bystander.printer resolves) blind parsed.tree

end

section
open Script

/-- A plugin with a parser, a printer and a hook of which none looks at the registry or the journal. -/
def alone : Bundle kit := ⟨"p", [
  .parser "words" wordParser,
  .printer "words-ast" (.scripted "words-ast" .json),
  .hook "words-ast" exclaiming]⟩

def aloneEntry : Invocation kit := ⟨.new ⟨[alone.plugin]⟩ "words", { state := {} }⟩

/-- A hook that would clear the plugins and fail, but in the parses of another parser. -/
def meddlesome : ScriptHook :=
  ⟨.closure "meddlesome" (.ok (.parser "other")) (some [.options .clearPlugins, .own (.fail (.plugin "no"))]) none,
    .parser "other"⟩

/-- A hook that would fail, but declares no stage. -/
def silent : ScriptHook :=
  ⟨.custom "silent" (.ok .any) [] [.own (.fail (.plugin "no"))] [.own (.fail (.plugin "no"))], .any⟩

/-- A factory that enters its runs in the journal. -/
def silentFactory : Factory Journal (List ScriptHook) :=
  ⟨0, fun _ => do
    record (.factory "lazy_hooks" "words-ast")
    pure [silent]⟩

def aside : Bundle kit := ⟨"aside", [
  .parser "other" wordParser,
  .printer "other-ast" (.scripted "other-ast" .json),
  .hook "words-ast" meddlesome,
  .lazyHooks "words-ast" silentFactory]⟩

/-- The sight of those who look at nothing in the world. -/
def unseeing : Sight Journal := ⟨fun _ _ => True, fun _ _ _ => trivial⟩

theorem eq_of_lookup_singleton {key name : String} {value other : α}
    (found : List.lookup name [(key, value)] = some other) : other = value := by
  rw [List.lookup_cons] at found
  split at found
  · cases found; rfl
  · cases found

theorem eq_of_provides_singleton {key : String} {value other : α}
    (provides : Provides (fun name => List.lookup name [(key, (Deferred.eager value : Deferred σ α))]) other) :
    other = value := by
  obtain ⟨_, _, _, _, found, resolved⟩ := provides
  obtain rfl := eq_of_lookup_singleton found
  cases resolved
  rfl

theorem blind_alone : Blind unseeing Script.capabilities alone.plugin where
  parser held := by
    obtain rfl := eq_of_lookup_singleton held
    exact matches_pure _
  printer held := by
    obtain rfl := eq_of_lookup_singleton held
    exact matches_pure _
  hooks held := by
    obtain rfl := eq_of_lookup_singleton held
    exact matches_pure _
  preprocess provides raw options registry := by
    obtain rfl := eq_of_provides_singleton provides
    exact fun _ _ _ => .ok trivial
  parse provides text options registry := by
    obtain rfl := eq_of_provides_singleton provides
    exact fun _ _ _ => .ok trivial
  print provides tree options registry := by
    obtain rfl := eq_of_provides_singleton provides
    exact fun _ _ _ => .ok trivial
  beforeParse provides text registry crowded := by
    obtain ⟨_, provides, member⟩ := provides
    obtain rfl := eq_of_provides_singleton provides
    obtain rfl := List.mem_singleton.mp member
    exact fun _ _ beside => .ok ⟨beside.registry, beside.options, trivial⟩
  afterParse provides tree registry crowded := by
    obtain ⟨_, provides, member⟩ := provides
    obtain rfl := eq_of_provides_singleton provides
    obtain rfl := List.mem_singleton.mp member
    exact fun _ _ beside => .ok ⟨beside.registry, beside.options, trivial⟩

theorem bystander_aside : Bystander unseeing Script.capabilities.toProfile aloneEntry aside.plugin := by
  refine bystander_of_declarations (by decide) fun parser found resolves => ?_
  have own : aloneEntry.options.registry.resolveParser Script.capabilities.toProfile "words" (entered aloneEntry) =
      .ok wordParser _ := rfl
  cases own.symm.trans resolves
  change ∀ declaration ∈ aside.declarations, printerSource? "words-ast" declaration = none ∧
    ∀ source, sourceOf? "words-ast" declaration = some source → Unseen _ _ source.supply
  have silentBuilt : Unseen unseeing (AllIdle Script.capabilities.toProfile (.top "words"))
      (HookSource.lazy silentFactory : HookSource kit).supply := by
    intro plain other worlds
    refine ⟨[silent], _, rfl, trivial, fun hook member => ?_⟩
    obtain rfl := List.mem_singleton.mp member
    exact .inr fun _ => rfl
  intro declaration declared
  simp only [aside, List.mem_cons, List.not_mem_nil, or_false] at declared
  rcases declared with rfl | rfl | rfl | rfl
  · exact ⟨rfl, fun source found => by cases found⟩
  · exact ⟨rfl, fun source found => by cases found⟩
  · refine ⟨rfl, fun source found => ?_⟩
    cases found
    exact unseen_eager (.inl rfl)
  · refine ⟨rfl, fun source found => ?_⟩
    cases found
    exact silentBuilt

def crowdedEntry : Invocation kit :=
  ⟨.new ⟨[aside.plugin, alone.plugin, aside.plugin]⟩ "words", { state := {} }⟩

/-- With the other plugin before and after it, the plugin parses and prints as it does alone. -/
theorem same_with_aside :
    Interspersed (Bystander unseeing Script.capabilities.toProfile aloneEntry) aloneEntry.options.registry.plugins
        crowdedEntry.options.registry.plugins ∧
      (∀ plugin ∈ aloneEntry.options.registry.plugins, Blind unseeing Script.capabilities plugin) ∧
      (∃ parsed after, Pipeline.parse {} Script.capabilities "a" crowdedEntry = .ok parsed after ∧
        parsed.text = "a!" ∧ after.options.committed = some "a!") ∧
      ∃ after, Pipeline.format {} Script.capabilities "a" crowdedEntry = .ok "\x7b\"k\":\"a!\"\x7d" after := by
  have interspersed : Interspersed (Bystander unseeing Script.capabilities.toProfile aloneEntry)
      aloneEntry.options.registry.plugins crowdedEntry.options.registry.plugins :=
    .insert bystander_aside (.keep alone.plugin (.insert bystander_aside .nil))
  have blind : ∀ plugin ∈ aloneEntry.options.registry.plugins, Blind unseeing Script.capabilities plugin := by
    intro plugin member
    obtain rfl := List.mem_singleton.mp member
    exact blind_alone
  have same : Agree _ _ (Pipeline.parse {} Script.capabilities "a" crowdedEntry) ∧
      Agree _ _ (Pipeline.format {} Script.capabilities "a" crowdedEntry) :=
    same_with_bystanders interspersed blind trivial {} "a"
  obtain ⟨parsing, formatting⟩ := same
  have parses : ∃ parsed after, Pipeline.parse {} Script.capabilities "a" aloneEntry = .ok parsed after ∧
      parsed.text = "a!" ∧ after.options.committed = some "a!" := ⟨_, _, rfl, rfl, rfl⟩
  have formats : ∃ after, Pipeline.format {} Script.capabilities "a" aloneEntry =
      .ok "\x7b\"k\":\"a!\"\x7d" after := ⟨_, rfl⟩
  obtain ⟨parsed, after, parses, text, committed⟩ := parses
  obtain ⟨last, formats⟩ := formats
  rw [parses] at parsing
  rw [formats] at formatting
  refine ⟨interspersed, blind, ?_, ?_⟩
  · generalize Pipeline.parse {} Script.capabilities "a" crowdedEntry = result at parsing
    cases parsing with
    | ok beside => exact ⟨parsed, _, rfl, text, by rw [beside.options]; exact committed⟩
  · generalize Pipeline.format {} Script.capabilities "a" crowdedEntry = result at formatting
    cases formatting with
    | ok beside => exact ⟨_, rfl⟩

end

end Polyglot.Pipeline
