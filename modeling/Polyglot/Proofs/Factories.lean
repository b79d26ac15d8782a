import Polyglot.Proofs.Courses
import Polyglot.Proofs.Stock
import Polyglot.Script.Rules

/-!
# The factories of an invocation

Where capabilities resolve no others themselves (`Contained`), an invocation runs the factory of
its parser, those of the hooks for the tree format of this parser, and, when it prints, that of
its printer (`Ran`). No factory runs twice for parsers or printers; one of hooks runs as often as
its bundle is registered, so twice where a bundle is registered twice (`factories_of_invocation`).
-/

namespace Polyglot.Declared

open Outcome Pipeline

variable {κ : Kit} {σ α β : Type}

/-- What a source gives: its value, or what its factory builds at some run. -/
inductive Source.Gives : Source σ α → α → Prop
  | eager (value : α) : Gives (.eager value) value
  | lazy {factory : Factory σ α} {earlier : Nat} {before after : σ} {value : α}
      (built : factory.build earlier before = .ok value after) : Gives (.lazy factory) value

/-- A hook that a source gives: its hook, or one of those that its factory builds at some run. -/
inductive HookSource.Gives : HookSource κ → κ.Hook → Prop
  | eager (hook : κ.Hook) : Gives (.eager hook) hook
  | lazy {factory : Factory κ.State (List κ.Hook)} {earlier : Nat} {before after : κ.State} {hooks : List κ.Hook}
      {hook : κ.Hook} (built : factory.build earlier before = .ok hooks after) (member : hook ∈ hooks) :
      Gives (.lazy factory) hook

namespace Stock

variable (stock : Stock κ)

/-- The stock declares a source of the capability. -/
def Offers (source? : String → Declaration κ → Option (Source κ.State α)) (value : α) : Prop :=
  ∃ bundle, stock.holds bundle ∧ ∃ declaration ∈ bundle.declarations, ∃ name source,
    source? name declaration = some source ∧ source.Gives value

/-- The stock declares a source of the hook. -/
def OffersHook (hook : κ.Hook) : Prop :=
  ∃ bundle, stock.holds bundle ∧ ∃ declaration ∈ bundle.declarations, ∃ treeFormat source,
    sourceOf? treeFormat declaration = some source ∧ source.Gives hook

/-- Options whose plugins are all of the stock. -/
def Stocks (options : Options κ) : Prop :=
  ∃ bundles : List (Bundle κ), (∀ bundle ∈ bundles, stock.holds bundle) ∧
    options.registry.plugins = bundles.map Bundle.plugin

/-- The step runs no factory, and registers no plugins but those of the stock. -/
def Still (step : Run κ α) : Prop :=
  ∀ runs, Preserves (fun invocation => stock.Stocks invocation.options ∧ invocation.world.runs = runs) step

/-- Capabilities none of which resolves another: parsers do not embed, printers do not delegate,
    and hooks do no more to the registry than to register what is in the stock. -/
structure Contained (capabilities : Capabilities κ) : Prop where
  preprocess {parser : κ.Parser} (offered : stock.Offers parserSource? parser) (raw : String) (options : Options κ) :
    Keeps World.runs (capabilities.preprocess parser raw options)
  parse {parser : κ.Parser} (offered : stock.Offers parserSource? parser) (text : String) (options : Options κ) :
    Keeps World.runs (capabilities.parse parser text options)
  print {printer : κ.Printer} (offered : stock.Offers printerSource? printer) (tree : Tree) (options : Options κ) :
    Keeps World.runs (capabilities.print printer tree options)
  beforeParse {hook : κ.Hook} (offered : stock.OffersHook hook) (text : String) :
    stock.Still (capabilities.beforeParse hook text)
  afterParse {hook : κ.Hook} (offered : stock.OffersHook hook) (tree : Tree) :
    stock.Still (capabilities.afterParse hook tree)

end Stock

/-- The parser that the options of an invocation name is had, and it is this one. -/
def Finds (profile : Profile κ) (entry : Invocation κ) (parser : κ.Parser) : Prop :=
  ∃ found, entry.options.registry.resolveParser profile entry.options.context.parser (entered entry) = .ok parser found

/-- The step puts runs of factories on record, also where it fails. -/
def Records (ids : List Nat) (step : Action σ α) : Prop :=
  ∀ before, (ending (step before)).runs = before.runs ++ ids

/-! ## Resolving -/

theorem Records.bind {ids : List Nat} {first : Action σ α} {rest : α → Action σ β} (records : Records ids first)
    (others : ∀ before value after, first before = .ok value after → Keeps World.runs (rest value)) :
    Records ids (first >>= rest) := by
  intro before
  have recorded := records before
  cases outcome : first before with
  | ok value middle =>
    rw [outcome] at recorded
    rw [bind_eq_of_ok outcome, others before value middle outcome middle]
    exact recorded
  | error fault after =>
    rw [outcome] at recorded
    rw [bind_eq_of_error outcome]
    exact recorded

theorem keeps_runs_report (event : Event) : Keeps World.runs (Action.report event : Action σ Unit) := fun _ => rfl

theorem records_run (factory : Factory σ α) : Records [factory.id] factory.run := by
  intro before
  cases outcome : factory.run before with
  | ok value after => exact runs_of_run_ok outcome
  | error fault after => exact runs_of_run_error outcome

theorem records_resolve (source : Source σ α) : Records source.id?.toList source.deferred.resolve := by
  cases source with
  | eager value => exact fun before => (List.append_nil before.runs).symm
  | lazy factory => exact records_run factory

theorem build_of_run_ok {factory : Factory σ α} {before after : World σ} {value : α}
    (succeeded : factory.run before = .ok value after) :
    factory.build (before.runs.count factory.id) before.state = .ok value after.state := by
  unfold Factory.run Action.ofState at succeeded
  split at succeeded
  · next built => cases succeeded; exact built
  · cases succeeded

theorem gives_of_resolve {source : Source σ α} {before after : World σ} {value : α}
    (succeeded : source.deferred.resolve before = .ok value after) : source.Gives value := by
  cases source with
  | eager other =>
    obtain ⟨rfl, _⟩ := pure_eq_ok_iff.mp succeeded
    exact .eager value
  | lazy factory => exact .lazy (build_of_run_ok succeeded)

theorem gives_of_supplied {sources : List (HookSource κ)} {before after : World κ.State} {hooks : List κ.Hook}
    (supplied : Supplied sources before hooks after) {hook : κ.Hook} (member : hook ∈ hooks) :
    ∃ source ∈ sources, source.Gives hook := by
  induction supplied with
  | done => cases member
  | @eager first rest _ _ _ _ ih =>
    rcases List.mem_cons.mp member with rfl | later
    · exact ⟨.eager hook, List.mem_cons_self, .eager hook⟩
    · obtain ⟨source, among, gives⟩ := ih later
      exact ⟨source, List.mem_cons_of_mem _ among, gives⟩
  | @lazy factory rest _ _ _ built _ succeeded _ ih =>
    rcases List.mem_append.mp member with own | later
    · exact ⟨.lazy factory, List.mem_cons_self, .lazy (build_of_run_ok succeeded) own⟩
    · obtain ⟨source, among, gives⟩ := ih later
      exact ⟨source, List.mem_cons_of_mem _ among, gives⟩

theorem records_takeFrom (winner : Option (String × Source σ α)) (missing : Fault)
    (event : String → Source σ α → α → Event) : Records (winnerIds winner) (takeFrom winner missing event) := by
  cases winner with
  | none => exact fun before => (List.append_nil before.runs).symm
  | some winner =>
    obtain ⟨plugin, source⟩ := winner
    exact (records_resolve source).bind fun _ _ _ _ => (keeps_runs_report _).bind fun _ => keeps_pure _

theorem gives_of_takeFrom {winner : Option (String × Source σ α)} {missing : Fault}
    {event : String → Source σ α → α → Event} {before after : World σ} {value : α}
    (taken : takeFrom winner missing event before = .ok value after) :
    ∃ plugin source, winner = some (plugin, source) ∧ source.Gives value := by
  cases winner with
  | none => cases taken
  | some winner =>
    obtain ⟨plugin, source⟩ := winner
    obtain ⟨other, _, resolved, rest⟩ := bind_eq_ok_iff.mp taken
    cases rest
    exact ⟨plugin, source, rfl, gives_of_resolve resolved⟩

section
variable {stock : Stock κ} {registry : Registry κ} {bundles : List (Bundle κ)}

theorem offers_of_takeFrom (held : ∀ bundle ∈ bundles, stock.holds bundle)
    {source? : String → Declaration κ → Option (Source κ.State α)} {name : String} {missing : Fault}
    {event : String → Source κ.State α → α → Event} {before after : World κ.State} {value : α}
    (taken : takeFrom (winner? source? name bundles) missing event before = .ok value after) :
    stock.Offers source? value := by
  obtain ⟨plugin, source, found, gives⟩ := gives_of_takeFrom taken
  obtain ⟨bundle, member, _, declaration, declared, own⟩ := declared_of_winner? found
  exact ⟨bundle, held bundle member, declaration, declared, name, source, own, gives⟩

theorem records_resolveParser (plugins : registry.plugins = bundles.map Bundle.plugin) (profile : Profile κ)
    (name : String) :
    Records (winnerIds (winner? parserSource? name bundles)) (registry.resolveParser profile name) := by
  rw [resolveParser_eq plugins]
  exact records_takeFrom _ _ _

theorem offers_of_resolveParser (held : ∀ bundle ∈ bundles, stock.holds bundle)
    (plugins : registry.plugins = bundles.map Bundle.plugin) {profile : Profile κ} {name : String}
    {before after : World κ.State} {parser : κ.Parser}
    (resolves : registry.resolveParser profile name before = .ok parser after) :
    stock.Offers parserSource? parser := by
  rw [resolveParser_eq plugins] at resolves
  exact offers_of_takeFrom held resolves

theorem hook_of_supplied (held : ∀ bundle ∈ bundles, stock.holds bundle) {treeFormat : String}
    {before after : World κ.State} {hooks : List κ.Hook}
    (supplied : Supplied (hookSources treeFormat bundles) before hooks after) {hook : κ.Hook} (member : hook ∈ hooks) :
    stock.OffersHook hook := by
  obtain ⟨source, among, gives⟩ := gives_of_supplied supplied member
  obtain ⟨bundle, registered, own⟩ := List.mem_flatMap.mp among
  obtain ⟨declaration, declared, found⟩ := List.mem_filterMap.mp own
  exact ⟨bundle, held bundle registered, declaration, declared, treeFormat, source, found, gives⟩

theorem records_printOn {capabilities : Capabilities κ} (contained : stock.Contained capabilities)
    (held : ∀ bundle ∈ bundles, stock.holds bundle) {options : Options κ}
    (registered : options.registry.plugins = bundles.map Bundle.plugin) (treeFormat : String) (tree : Tree) :
    Records (winnerIds (winner? printerSource? treeFormat bundles)) (printOn capabilities treeFormat tree options) := by
  unfold printOn
  rw [resolvePrinter_eq registered]
  exact (records_takeFrom _ _ _).bind fun _ _ _ taken => contained.print (offers_of_takeFrom held taken) tree options

end

/-! ## Calls -/

section
variable {stock : Stock κ} {capabilities : Capabilities κ}

theorem still_ofAction {action : Options κ → Action κ.State α} (keeps : ∀ options, Keeps World.runs (action options)) :
    stock.Still (Run.ofAction action) := by
  rintro runs before ⟨stocks, recorded⟩
  have kept := keeps before.options before.world
  unfold Run.ofAction
  generalize action before.options before.world = outcome at kept ⊢
  cases outcome with
  | ok value world => exact ⟨stocks, kept.trans recorded⟩
  | error fault world => exact ⟨stocks, kept.trans recorded⟩

theorem still_report (stock : Stock κ) (event : Event) : stock.Still (Run.report event) :=
  still_ofAction fun _ => keeps_runs_report event

/-- Once the calls of a parse begin, no factory runs. -/
theorem still_proceed (contained : stock.Contained capabilities) {plan : Plan κ}
    (offered : stock.Offers parserSource? plan.parser) (hooks : ∀ hook ∈ plan.hooks, stock.OffersHook hook)
    (pipeline : Pipeline) (raw text : String) : stock.Still (pipeline.proceed capabilities raw plan text) := by
  intro runs
  have commits (made : String) : Preserves (fun invocation => stock.Stocks invocation.options ∧
      invocation.world.runs = runs) (commit made) := fun _ held => held
  refine preserves_proceed (fun event => still_report stock event runs) commits
    (fun made => still_ofAction (contained.parse offered made) runs) ?_ ?_ pipeline raw text
  · intro hook member made
    exact contained.beforeParse (hooks hook member) made runs
  · intro hook member tree
    exact contained.afterParse (hooks hook member) tree runs

/-! ## Before the calls -/

variable {bundles : List (Bundle κ)} {entry : Invocation κ}

theorem runs_of_enter_ok (registered : entry.options.registry.plugins = bundles.map Bundle.plugin)
    {profile : Profile κ} {parser : κ.Parser} {found : World κ.State}
    (resolves : entry.options.registry.resolveParser profile entry.options.context.parser (entered entry) =
      .ok parser found) :
    found.runs = entry.world.runs ++ winnerIds (winner? parserSource? entry.options.context.parser bundles) := by
  have recorded := records_resolveParser registered profile entry.options.context.parser (entered entry)
  rw [resolves] at recorded
  exact recorded

/-- Once its hooks are had, a parse ran the factory of its parser and all factories of its hooks. -/
theorem runs_of_gather_ok (registered : entry.options.registry.plugins = bundles.map Bundle.plugin)
    {profile : Profile κ} {parser : κ.Parser} {hooks : List κ.Hook} {begun gathered : Invocation κ}
    (enters : enter profile entry = .ok parser begun) (gathers : gather profile parser begun = .ok hooks gathered) :
    Finds profile entry parser ∧
      gathered.world.runs = entry.world.runs ++
        (winnerIds (winner? parserSource? entry.options.context.parser bundles) ++
          hookIds (profile.treeFormat parser) bundles) := by
  obtain ⟨_, planned, rfl⟩ := (gathers_iff_planned registered).mp ⟨_, enters, gathers⟩
  obtain ⟨found, declared, supplied, resolves, _, supplies, _, rfl⟩ := planned_iff.mp planned
  have recorded := runs_of_supplied supplies
  rw [runs_of_enter_ok registered resolves, List.append_assoc] at recorded
  exact ⟨⟨found, resolves⟩, recorded⟩

theorem runs_of_opens (registered : entry.options.registry.plugins = bundles.map Bundle.plugin)
    (held : ∀ bundle ∈ bundles, stock.holds bundle) (contained : stock.Contained capabilities) {raw text : String}
    {plan : Plan κ} {start : Invocation κ} (opens : Opens capabilities raw entry plan text start) :
    start.world.runs = entry.world.runs ++
      (winnerIds (winner? parserSource? entry.options.context.parser bundles) ++
        hookIds (capabilities.treeFormat plan.parser) bundles) := by
  obtain ⟨enters, gathers, preprocesses⟩ := opens
  obtain ⟨⟨found, resolves⟩, recorded⟩ := runs_of_gather_ok registered enters gathers
  have offered := offers_of_resolveParser held registered resolves
  rw [← recorded]
  exact (contained.preprocess offered raw _).of_ok preprocesses

/-- A parse that fails early ran the factory of its parser, and factories of hooks for the tree
    format of this parser up to one that failed. -/
theorem runs_of_early (registered : entry.options.registry.plugins = bundles.map Bundle.plugin)
    (held : ∀ bundle ∈ bundles, stock.holds bundle) (contained : stock.Contained capabilities) {raw : String}
    {after : Invocation κ} {fault : Fault} (early : Early capabilities raw entry fault after) :
    ∃ gathered,
      after.world.runs = entry.world.runs ++
        (winnerIds (winner? parserSource? entry.options.context.parser bundles) ++ gathered) ∧
      (gathered = [] ∨ ∃ parser, Finds capabilities.toProfile entry parser ∧
        gathered <+: hookIds (capabilities.treeFormat parser) bundles) := by
  cases early with
  | resolvingParser failed =>
    obtain ⟨world, resolving, rfl⟩ := enter_eq_error_iff.mp failed
    have recorded :=
      records_resolveParser registered capabilities.toProfile entry.options.context.parser (entered entry)
    rw [resolving] at recorded
    exact ⟨[], by rw [List.append_nil]; exact recorded, .inl rfl⟩
  | @resolvingHooks parser _ _ enters failed =>
    obtain ⟨found, resolves, rfl⟩ := enter_eq_ok_iff.mp enters
    obtain ⟨world, resolving, rfl⟩ := gather_eq_error_iff.mp failed
    have begun := runs_of_enter_ok registered resolves
    by_cases named : capabilities.treeFormat parser = ""
    · -- Without a tree format the hooks are not looked for.
      rw [Registry.resolveHooks, if_pos named] at resolving
      cases resolving
      exact ⟨[], by rw [List.append_nil]; exact begun, .inl rfl⟩
    · obtain ⟨earlier, factory, later, _, reached, split, supplies, fails⟩ :=
        (resolveHooks_eq_error_iff named registered).mp resolving
      refine ⟨earlier.filterMap HookSource.id? ++ [factory.id], ?_, .inr ⟨parser, ⟨found, resolves⟩, ?_⟩⟩
      · have recorded := runs_of_run_error fails
        rw [runs_of_supplied supplies, begun] at recorded
        simp only [List.append_assoc] at recorded
        exact recorded
      · have numbered : (HookSource.lazy factory :: later).filterMap HookSource.id? =
            factory.id :: later.filterMap HookSource.id? := rfl
        rw [hookIds, split, List.filterMap_append, numbered]
        exact ⟨_, (List.append_cons _ _ _).symm⟩
  | @preprocessing parser hooks _ _ _ enters gathers failed =>
    obtain ⟨⟨found, resolves⟩, recorded⟩ := runs_of_gather_ok registered enters gathers
    have offered := offers_of_resolveParser held registered resolves
    refine ⟨hookIds (capabilities.treeFormat parser) bundles, ?_,
      .inr ⟨parser, ⟨found, resolves⟩, List.prefix_rfl⟩⟩
    rw [← recorded]
    exact (contained.preprocess offered raw _).of_error failed

end

/-! ## A whole invocation -/

/-- The factories that parsing and then printing run: that of the winning parser; factories of hooks for
    its tree format, in order; and that of the printer that wins among the plugins that the parse left. -/
structure Ran (stock : Stock κ) (pipeline : Pipeline) (capabilities : Capabilities κ) (raw : String)
    (bundles : List (Bundle κ)) (entry : Invocation κ) (own gathered printed : List Nat) : Prop where
  own : own = winnerIds (winner? parserSource? entry.options.context.parser bundles)
  gathered : gathered = [] ∨ ∃ parser, Finds capabilities.toProfile entry parser ∧
    gathered <+: hookIds (capabilities.treeFormat parser) bundles
  printed : printed = [] ∨ ∃ parser parsed after later, Finds capabilities.toProfile entry parser ∧
    pipeline.parse capabilities raw entry = .ok parsed after ∧
    after.options.registry.plugins = later.map Bundle.plugin ∧ (∀ bundle ∈ later, stock.holds bundle) ∧
    printed = winnerIds (winner? printerSource? (capabilities.treeFormat parser) later)

section
variable {stock : Stock κ} {pipeline : Pipeline} {capabilities : Capabilities κ} {raw : String}
  {bundles : List (Bundle κ)} {entry : Invocation κ} {own gathered printed : List Nat}

theorem ending_ofAction (action : Options κ → Action κ.State α) (before : Invocation κ) :
    (ending (Run.ofAction action before)).world = ending (action before.options before.world) := by
  unfold Run.ofAction
  cases action before.options before.world <;> rfl

theorem ran_of_early (registered : entry.options.registry.plugins = bundles.map Bundle.plugin)
    (held : ∀ bundle ∈ bundles, stock.holds bundle) (contained : stock.Contained capabilities) {fault : Fault}
    {after : Invocation κ} (early : Early capabilities raw entry fault after) (pipeline : Pipeline) :
    ∃ own gathered printed, Ran stock pipeline capabilities raw bundles entry own gathered printed ∧
      (ending (pipeline.parse capabilities raw entry)).world.runs = entry.world.runs ++ (own ++ gathered) ∧
      (ending (pipeline.format capabilities raw entry)).world.runs =
        entry.world.runs ++ (own ++ gathered ++ printed) := by
  obtain ⟨gathered, recorded, among⟩ := runs_of_early registered held contained early
  have failed := parse_eq_error_of_early early pipeline
  refine ⟨_, gathered, [], ⟨rfl, among, .inl rfl⟩, ?_, ?_⟩
  · rw [failed]
    exact recorded
  · rw [format_eq_error_of_parse failed, List.append_nil]
    exact recorded

/-- Once the calls of a parse begin, all factories of its hooks have run. -/
theorem ran_of_opens (registered : entry.options.registry.plugins = bundles.map Bundle.plugin)
    (held : ∀ bundle ∈ bundles, stock.holds bundle) (contained : stock.Contained capabilities) {plan : Plan κ}
    {text : String} {start : Invocation κ} (opens : Opens capabilities raw entry plan text start)
    (pipeline : Pipeline) :
    ∃ own printed,
      Ran stock pipeline capabilities raw bundles entry own (hookIds (capabilities.treeFormat plan.parser) bundles)
        printed ∧
      (ending (pipeline.parse capabilities raw entry)).world.runs =
        entry.world.runs ++ (own ++ hookIds (capabilities.treeFormat plan.parser) bundles) ∧
      (ending (pipeline.format capabilities raw entry)).world.runs =
        entry.world.runs ++ (own ++ hookIds (capabilities.treeFormat plan.parser) bundles ++ printed) := by
  have recorded := runs_of_opens registered held contained opens
  obtain ⟨found, declared, supplied, resolves, _, supplies, selects⟩ := planned_of_opens registered opens
  have offered := offers_of_resolveParser held registered resolves
  have hooks : ∀ hook ∈ plan.hooks, stock.OffersHook hook := by
    intro hook member
    rw [selects] at member
    exact hook_of_supplied held supplies (List.mem_filter.mp member).1
  have stocks : stock.Stocks start.options := by
    rw [options_of_opens opens]
    exact ⟨bundles, held, registered⟩
  -- The calls run nothing, so all that ran is known when they begin; printing adds its printer.
  have still := still_proceed contained offered hooks pipeline raw text _ start ⟨stocks, recorded⟩
  have parses := parse_eq_of_opens opens pipeline
  have formats := format_eq_of_opens opens pipeline
  cases outcome : pipeline.proceed capabilities raw plan text start with
  | error fault after =>
    rw [outcome] at still parses
    rw [bind_eq_of_error outcome] at formats
    refine ⟨_, [], ⟨rfl, .inr ⟨plan.parser, ⟨found, resolves⟩, List.prefix_rfl⟩, .inl rfl⟩, ?_, ?_⟩
    · rw [parses]
      exact still.2
    · rw [formats, List.append_nil]
      exact still.2
  | ok parsed after =>
    rw [outcome] at still parses
    rw [bind_eq_of_ok outcome] at formats
    have left : stock.Stocks after.options ∧ after.world.runs = _ := still
    obtain ⟨⟨later, heldLater, registeredLater⟩, kept⟩ := left
    have printing := records_printOn contained heldLater registeredLater (capabilities.treeFormat plan.parser)
      parsed.tree after.world
    refine ⟨_, _, ⟨rfl, .inr ⟨plan.parser, ⟨found, resolves⟩, List.prefix_rfl⟩, .inr ⟨plan.parser, parsed, after,
      later, ⟨found, resolves⟩, parses, registeredLater, heldLater, rfl⟩⟩, ?_, ?_⟩
    · rw [parses]
      exact kept
    · rw [formats, ending_ofAction]
      rw [kept, List.append_assoc] at printing
      exact printing

theorem ran_of_invocation (registered : entry.options.registry.plugins = bundles.map Bundle.plugin)
    (held : ∀ bundle ∈ bundles, stock.holds bundle) (contained : stock.Contained capabilities)
    (pipeline : Pipeline) (raw : String) :
    ∃ own gathered printed, Ran stock pipeline capabilities raw bundles entry own gathered printed ∧
      (ending (pipeline.parse capabilities raw entry)).world.runs = entry.world.runs ++ (own ++ gathered) ∧
      (ending (pipeline.format capabilities raw entry)).world.runs =
        entry.world.runs ++ (own ++ gathered ++ printed) ∧
      ∀ plan text start, Opens capabilities raw entry plan text start →
        gathered = hookIds (capabilities.treeFormat plan.parser) bundles := by
  rcases early_or_opens capabilities raw entry with ⟨fault, after, early⟩ | ⟨plan, text, start, opens⟩
  · obtain ⟨own, gathered, printed, ran, parses, formats⟩ := ran_of_early registered held contained early pipeline
    exact ⟨own, gathered, printed, ran, parses, formats, fun _ _ _ opens => absurd opens (not_opens_of_early early)⟩
  · obtain ⟨own, printed, ran, parses, formats⟩ := ran_of_opens registered held contained opens pipeline
    refine ⟨own, _, printed, ran, parses, formats, fun other _ _ again => ?_⟩
    obtain ⟨rfl, _⟩ := opens_unique opens again
    rfl

/-! ## How often factories run -/

theorem Ran.declares_own (ran : Ran stock pipeline capabilities raw bundles entry own gathered printed)
    (held : ∀ bundle ∈ bundles, stock.holds bundle) {id : Nat} (member : id ∈ own) :
    ∃ bundle factory, stock.Declares bundle (.lazyParser entry.options.context.parser factory) id ∧
      winner? parserSource? entry.options.context.parser bundles = some (bundle.name, .lazy factory) := by
  rw [ran.own] at member
  obtain ⟨plugin, factory, winner, rfl⟩ := winner_of_mem_winnerIds member
  obtain ⟨bundle, registered, rfl, declaration, declared, source⟩ := declared_of_winner? winner
  obtain rfl := parserSource?_eq_lazy source
  exact ⟨bundle, factory, ⟨held bundle registered, declared, rfl⟩, winner⟩

theorem Ran.declares_gathered (ran : Ran stock pipeline capabilities raw bundles entry own gathered printed)
    (held : ∀ bundle ∈ bundles, stock.holds bundle) {id : Nat} (member : id ∈ gathered) :
    ∃ parser bundle factory, Finds capabilities.toProfile entry parser ∧
      stock.Declares bundle (.lazyHooks (capabilities.treeFormat parser) factory) id := by
  rcases ran.gathered with rfl | ⟨parser, finds, among⟩
  · cases member
  · obtain ⟨bundle, registered, factory, declared, rfl⟩ := mem_hookIds_iff.mp (among.subset member)
    exact ⟨parser, bundle, factory, finds, held bundle registered, declared, rfl⟩

theorem Ran.declares_printed (ran : Ran stock pipeline capabilities raw bundles entry own gathered printed)
    {id : Nat} (member : id ∈ printed) :
    ∃ parser bundle factory, Finds capabilities.toProfile entry parser ∧
      stock.Declares bundle (.lazyPrinter (capabilities.treeFormat parser) factory) id := by
  rcases ran.printed with rfl | ⟨parser, _, _, later, finds, _, _, heldLater, rfl⟩
  · cases member
  · obtain ⟨plugin, factory, winner, rfl⟩ := winner_of_mem_winnerIds member
    obtain ⟨bundle, registered, _, declaration, declared, source⟩ := declared_of_winner? winner
    obtain rfl := printerSource?_eq_lazy source
    exact ⟨parser, bundle, factory, finds, heldLater bundle registered, declared, rfl⟩

section
variable {bundle : Bundle κ} {declaration : Declaration κ} {id : Nat}

/-- The number of a declaration that is not of a parser does not come among those of parsers; and so for
    hooks and printers. -/
theorem Ran.not_mem_own (ran : Ran stock pipeline capabilities raw bundles entry own gathered printed)
    (held : ∀ bundle ∈ bundles, stock.holds bundle) (declares : stock.Declares bundle declaration id)
    (differs : ∀ name factory, declaration ≠ .lazyParser name factory) : id ∉ own := by
  intro member
  obtain ⟨_, factory, parser, _⟩ := ran.declares_own held member
  exact differs _ factory (declares.unique parser).2

theorem Ran.not_mem_gathered (ran : Ran stock pipeline capabilities raw bundles entry own gathered printed)
    (held : ∀ bundle ∈ bundles, stock.holds bundle) (declares : stock.Declares bundle declaration id)
    (differs : ∀ treeFormat factory, declaration ≠ .lazyHooks treeFormat factory) : id ∉ gathered := by
  intro member
  obtain ⟨_, _, factory, _, hooks⟩ := ran.declares_gathered held member
  exact differs _ factory (declares.unique hooks).2

theorem Ran.not_mem_printed (ran : Ran stock pipeline capabilities raw bundles entry own gathered printed)
    (declares : stock.Declares bundle declaration id)
    (differs : ∀ treeFormat factory, declaration ≠ .lazyPrinter treeFormat factory) : id ∉ printed := by
  intro member
  obtain ⟨_, _, factory, _, printer⟩ := ran.declares_printed member
  exact differs _ factory (declares.unique printer).2

end

theorem Ran.nodup_own (ran : Ran stock pipeline capabilities raw bundles entry own gathered printed) : own.Nodup := by
  rw [ran.own]
  exact nodup_winnerIds _

theorem Ran.nodup_printed (ran : Ran stock pipeline capabilities raw bundles entry own gathered printed) :
    printed.Nodup := by
  rcases ran.printed with rfl | ⟨_, _, _, _, _, _, _, _, rfl⟩
  · exact List.nodup_nil
  · exact nodup_winnerIds _

/-- The factory of a parser runs once at most, and only when it is that of the winning parser. -/
theorem Ran.parser (ran : Ran stock pipeline capabilities raw bundles entry own gathered printed)
    (held : ∀ bundle ∈ bundles, stock.holds bundle) {bundle : Bundle κ} {name : String} {id : Nat}
    {factory : Factory κ.State κ.Parser} (declares : stock.Declares bundle (.lazyParser name factory) id) :
    (own ++ gathered ++ printed).count id ≤ 1 ∧
      (id ∈ own ++ gathered ++ printed →
        winner? parserSource? entry.options.context.parser bundles = some (bundle.name, .lazy factory)) := by
  have notGathered : id ∉ gathered := ran.not_mem_gathered held declares nofun
  have notPrinted : id ∉ printed := ran.not_mem_printed declares nofun
  constructor
  · rw [List.count_append, List.count_append, List.count_eq_zero_of_not_mem notGathered,
      List.count_eq_zero_of_not_mem notPrinted]
    exact List.nodup_iff_count_le_one.mp ran.nodup_own id
  · simp only [List.mem_append, or_iff_left notPrinted, or_iff_left notGathered]
    intro member
    obtain ⟨other, again, parser, winner⟩ := ran.declares_own held member
    obtain ⟨rfl, same⟩ := declares.unique parser
    cases same
    exact winner

/-- The factory of a printer runs once at most, not before printing, and only for the tree format of the parser. -/
theorem Ran.printer (ran : Ran stock pipeline capabilities raw bundles entry own gathered printed)
    (held : ∀ bundle ∈ bundles, stock.holds bundle) {bundle : Bundle κ} {treeFormat : String} {id : Nat}
    {factory : Factory κ.State κ.Printer} (declares : stock.Declares bundle (.lazyPrinter treeFormat factory) id) :
    (own ++ gathered ++ printed).count id ≤ 1 ∧ id ∉ own ++ gathered ∧
      (id ∈ printed → ∃ parser, Finds capabilities.toProfile entry parser ∧
        treeFormat = capabilities.treeFormat parser) := by
  have notOwn : id ∉ own := ran.not_mem_own held declares nofun
  have notGathered : id ∉ gathered := ran.not_mem_gathered held declares nofun
  refine ⟨?_, ?_, fun member => ?_⟩
  · rw [List.count_append, List.count_append, List.count_eq_zero_of_not_mem notOwn,
      List.count_eq_zero_of_not_mem notGathered, Nat.zero_add]
    exact List.nodup_iff_count_le_one.mp ran.nodup_printed id
  · simp only [List.mem_append, notOwn, notGathered, or_self, not_false_eq_true]
  · obtain ⟨parser, _, _, finds, printer⟩ := ran.declares_printed member
    cases (declares.unique printer).2
    exact ⟨parser, finds, rfl⟩

/-- A factory of hooks runs as often as its bundle is registered at most, and only for the tree format
    of the parser. -/
theorem Ran.hooks (ran : Ran stock pipeline capabilities raw bundles entry own gathered printed)
    (held : ∀ bundle ∈ bundles, stock.holds bundle) {bundle : Bundle κ} {treeFormat : String} {id : Nat}
    {factory : Factory κ.State (List κ.Hook)} (declares : stock.Declares bundle (.lazyHooks treeFormat factory) id) :
    (own ++ gathered ++ printed).count id = gathered.count id ∧
      gathered.count id ≤ bundles.countP (fun other => id ∈ other.factories) ∧
      (id ∈ own ++ gathered ++ printed → ∃ parser, Finds capabilities.toProfile entry parser ∧
        treeFormat = capabilities.treeFormat parser) := by
  have notOwn : id ∉ own := ran.not_mem_own held declares nofun
  have notPrinted : id ∉ printed := ran.not_mem_printed declares nofun
  refine ⟨?_, ?_, ?_⟩
  · rw [List.count_append, List.count_append, List.count_eq_zero_of_not_mem notOwn,
      List.count_eq_zero_of_not_mem notPrinted, Nat.zero_add, Nat.add_zero]
  · rcases ran.gathered with rfl | ⟨parser, _, among⟩
    · exact Nat.zero_le _
    · exact Nat.le_trans (among.sublist.count_le id) (Stock.count_hookIds_le held declares _)
  · simp only [List.mem_append, or_iff_left notPrinted, or_iff_right notOwn]
    intro member
    obtain ⟨parser, _, _, finds, hooks⟩ := ran.declares_gathered held member
    cases (declares.unique hooks).2
    exact ⟨parser, finds, rfl⟩

/-- Where no bundle is registered twice, no factory runs twice. -/
theorem Ran.nodup (ran : Ran stock pipeline capabilities raw bundles entry own gathered printed)
    (held : ∀ bundle ∈ bundles, stock.holds bundle) (once : bundles.Nodup) : (own ++ gathered ++ printed).Nodup := by
  have gatheredOnce : gathered.Nodup := by
    rcases ran.gathered with rfl | ⟨_, _, among⟩
    · exact List.nodup_nil
    · exact (Stock.nodup_hookIds held once _).sublist among.sublist
  rw [List.nodup_append', List.nodup_append']
  refine ⟨⟨ran.nodup_own, gatheredOnce, fun id mine its => ?_⟩, ran.nodup_printed, fun id mine its => ?_⟩
  · obtain ⟨_, _, parser, _⟩ := ran.declares_own held mine
    exact ran.not_mem_gathered held parser nofun its
  · obtain ⟨_, _, _, _, printer⟩ := ran.declares_printed its
    exact (ran.printer held printer).2.1 mine

/-- Parsing runs no factories but that of the winning parser and those of the hooks for its tree format, and
    printing no other than that of the printer that wins for this tree format. The factory of a parser or
    a printer runs once at most, and no factory runs twice where no bundle is registered twice. But a
    factory of hooks is taken with each registration of its bundle: once the hooks are had, it ran just
    as often. -/
theorem factories_of_invocation (registered : entry.options.registry.plugins = bundles.map Bundle.plugin)
    (held : ∀ bundle ∈ bundles, stock.holds bundle) (contained : stock.Contained capabilities)
    (pipeline : Pipeline) (raw : String) :
    ∃ own gathered printed, Ran stock pipeline capabilities raw bundles entry own gathered printed ∧
      (ending (pipeline.parse capabilities raw entry)).world.runs = entry.world.runs ++ (own ++ gathered) ∧
      (ending (pipeline.format capabilities raw entry)).world.runs =
        entry.world.runs ++ (own ++ gathered ++ printed) ∧
      (bundles.Nodup → (own ++ gathered ++ printed).Nodup) ∧
      (∀ bundle name factory id, stock.Declares bundle (.lazyParser name factory) id →
        (own ++ gathered ++ printed).count id ≤ 1 ∧
        (id ∈ own ++ gathered ++ printed →
          winner? parserSource? entry.options.context.parser bundles = some (bundle.name, .lazy factory))) ∧
      (∀ bundle treeFormat factory id, stock.Declares bundle (.lazyPrinter treeFormat factory) id →
        (own ++ gathered ++ printed).count id ≤ 1 ∧ id ∉ own ++ gathered ∧
        (id ∈ printed → ∃ parser, Finds capabilities.toProfile entry parser ∧
          treeFormat = capabilities.treeFormat parser)) ∧
      (∀ bundle treeFormat factory id, stock.Declares bundle (.lazyHooks treeFormat factory) id →
        (own ++ gathered ++ printed).count id ≤ bundles.countP (fun other => id ∈ other.factories) ∧
        (id ∈ own ++ gathered ++ printed → ∃ parser, Finds capabilities.toProfile entry parser ∧
          treeFormat = capabilities.treeFormat parser) ∧
        ∀ plan text start, Opens capabilities raw entry plan text start →
          treeFormat = capabilities.treeFormat plan.parser →
          (own ++ gathered ++ printed).count id = bundles.countP fun other => id ∈ other.factories) := by
  obtain ⟨own, gathered, printed, ran, parses, formats, all⟩ := ran_of_invocation registered held contained pipeline raw
  refine ⟨own, gathered, printed, ran, parses, formats, ran.nodup held, ?_, ?_, ?_⟩
  · intro bundle name factory id declares
    exact ran.parser held declares
  · intro bundle treeFormat factory id declares
    exact ran.printer held declares
  · intro bundle treeFormat factory id declares
    obtain ⟨only, bounded, used⟩ := ran.hooks held declares
    refine ⟨only ▸ bounded, used, fun plan text start opens same => ?_⟩
    rw [only, all plan text start opens, ← same]
    exact Stock.count_hookIds held declares

end

section
open Script

/-- A factory that enters its runs in the journal. -/
def counted (id : Nat) (part : String) (build : Build α) : Factory Journal α :=
  ⟨id, fun _ => do
    record (.factory part "x-ast")
    build⟩

def echoParser : ScriptParser := .scripted "p/x" { treeFormat := "x-ast", parse := .echo "k" }

def jsonPrinter : ScriptPrinter := .scripted "x-ast" .json

/-- A bundle with a factory for each kind of capability; that of hooks builds none. -/
def shared : Bundle kit := ⟨"p", [
  .lazyParser "x" (counted 0 "lazy_parser" (pure echoParser)),
  .lazyHooks "x-ast" (counted 1 "lazy_hooks" (pure [])),
  .lazyPrinter "x-ast" (counted 2 "lazy_printer" (pure jsonPrinter))]⟩

def sharedStock : Stock kit where
  holds bundle := bundle = shared
  distinct := by
    rintro _ rfl
    decide
  apart held also _ _ := held.trans also.symm

theorem eq_echoParser_of_offers {parser : ScriptParser} (offered : sharedStock.Offers parserSource? parser) :
    parser = echoParser := by
  obtain ⟨_, rfl, declaration, declared, name, source, found, gives⟩ := offered
  rcases List.mem_cons.mp declared with rfl | declared
  · obtain ⟨_, same⟩ := Option.ite_none_right_eq_some.mp found
    cases same
    cases gives with
    | lazy built => cases built; rfl
  · rcases List.mem_pair.mp declared with rfl | rfl <;> cases found

theorem eq_jsonPrinter_of_offers {printer : ScriptPrinter} (offered : sharedStock.Offers printerSource? printer) :
    printer = jsonPrinter := by
  obtain ⟨_, rfl, declaration, declared, treeFormat, source, found, gives⟩ := offered
  rcases List.mem_cons.mp declared with rfl | declared
  · cases found
  · rcases List.mem_pair.mp declared with rfl | rfl
    · cases found
    · obtain ⟨_, same⟩ := Option.ite_none_right_eq_some.mp found
      cases same
      cases gives with
      | lazy built => cases built; rfl

theorem not_offersHook_shared (hook : ScriptHook) : ¬ sharedStock.OffersHook hook := by
  rintro ⟨_, rfl, declaration, declared, treeFormat, source, found, gives⟩
  rcases List.mem_cons.mp declared with rfl | declared
  · cases found
  · rcases List.mem_pair.mp declared with rfl | rfl
    · obtain ⟨_, same⟩ := Option.ite_none_right_eq_some.mp found
      cases same
      cases gives with
      | lazy built member => cases built; cases member
    · cases found

theorem contained_shared : sharedStock.Contained Script.capabilities where
  preprocess offered raw options := by
    obtain rfl := eq_echoParser_of_offers offered
    exact fun _ => rfl
  parse offered text options := by
    obtain rfl := eq_echoParser_of_offers offered
    exact fun _ => rfl
  print offered tree options := by
    obtain rfl := eq_jsonPrinter_of_offers offered
    exact fun _ => rfl
  beforeParse offered := absurd offered (not_offersHook_shared _)
  afterParse offered := absurd offered (not_offersHook_shared _)

theorem held_shared : ∀ bundle ∈ [shared, shared], sharedStock.holds bundle := by
  intro bundle member
  rcases List.mem_pair.mp member with rfl | rfl <;> rfl

/-- An invocation with the bundle registered twice. -/
def twice : Invocation kit := ⟨.new ⟨[shared, shared].map Bundle.plugin⟩ "x", { state := {} }⟩

/-- Formatting with the bundle registered twice runs the factory of its parser once, that of its hooks twice. -/
theorem factories_of_twice :
    twice.options.registry.plugins = [shared, shared].map Bundle.plugin ∧
      (∀ bundle ∈ [shared, shared], sharedStock.holds bundle) ∧ sharedStock.Contained Script.capabilities ∧
      sharedStock.Declares shared (.lazyParser "x" (counted 0 "lazy_parser" (pure echoParser))) 0 ∧
      sharedStock.Declares shared (.lazyHooks "x-ast" (counted 1 "lazy_hooks" (pure []))) 1 ∧
      (ending (Pipeline.format {} Script.capabilities "a" twice)).world.runs.count 0 ≤ 1 ∧
      (ending (Pipeline.format {} Script.capabilities "a" twice)).world.runs.count 1 = 2 := by
  have registered : twice.options.registry.plugins = [shared, shared].map Bundle.plugin := rfl
  have parser : sharedStock.Declares shared (.lazyParser "x" (counted 0 "lazy_parser" (pure echoParser))) 0 :=
    ⟨rfl, List.mem_cons_self, rfl⟩
  have hooks : sharedStock.Declares shared (.lazyHooks "x-ast" (counted 1 "lazy_hooks" (pure []))) 1 :=
    ⟨rfl, List.mem_cons_of_mem _ List.mem_cons_self, rfl⟩
  have opens : Opens Script.capabilities "a" twice ⟨echoParser, []⟩ "a" _ := .intro rfl rfl rfl
  obtain ⟨own, gathered, printed, _, _, formats, _, parsers, _, ofHooks⟩ :=
    factories_of_invocation registered held_shared contained_shared {} "a"
  have started : twice.world.runs = [] := rfl
  rw [started, List.nil_append] at formats
  refine ⟨registered, held_shared, contained_shared, parser, hooks, ?_, ?_⟩
  · rw [formats]
    exact (parsers shared _ _ 0 parser).1
  · rw [formats, (ofHooks shared _ _ 1 hooks).2.2 _ _ _ opens rfl]
    decide

/-- So factories of hooks may run more than once in one parse. -/
theorem not_factories_once :
    ¬ ∀ (stock : Stock kit) (bundles : List (Bundle kit)) (entry : Invocation kit) (raw : String) (id : Nat),
      entry.options.registry.plugins = bundles.map Bundle.plugin → (∀ bundle ∈ bundles, stock.holds bundle) →
      stock.Contained Script.capabilities → entry.world.runs = [] →
      (ending (Pipeline.parse {} Script.capabilities raw entry)).world.runs.count id ≤ 1 := by
  intro once
  have bounded := once sharedStock [shared, shared] twice "a" 1 rfl held_shared contained_shared rfl
  have runs : (ending (Pipeline.parse {} Script.capabilities "a" twice)).world.runs = [0, 1, 1] := rfl
  rw [runs] at bounded
  revert bounded
  decide

end

end Polyglot.Declared
