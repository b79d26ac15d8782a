import Polyglot.Proofs.Factories

/-!
# Parsing and printing

To format a text is to parse it and then to print the tree: on the options and in the world that
the parse left, and for the tree format of the parser that was resolved when it began, whatever
became of the options since (`format_is_parse_then_print`). So what formatting calls before it
prints is what the parse calls, and no factory of a printer is among it.
-/

namespace Polyglot.Pipeline

open Outcome Declared

variable {κ : Kit}

/-! ## Printing after the parse -/

theorem format_eq_of_enter {capabilities : Capabilities κ} {entry begun : Invocation κ} {parser : κ.Parser}
    (enters : enter capabilities.toProfile entry = .ok parser begun) (pipeline : Pipeline) (raw : String) :
    pipeline.format capabilities raw entry =
      (pipeline.parse capabilities raw >>= fun parsed =>
        Run.ofAction (printOn capabilities (capabilities.treeFormat parser) parsed.tree)) entry := by
  rw [format, parse, bind_assoc, bind_eq_of_ok enters, bind_eq_of_ok enters]

/-- Where a parse succeeds, formatting goes on from what it left, with the tree format of the parser that
    the options named at its beginning. -/
theorem format_eq_of_parse_ok {pipeline : Pipeline} {capabilities : Capabilities κ} {raw : String}
    {entry after : Invocation κ} {parsed : Parsed}
    (succeeded : pipeline.parse capabilities raw entry = .ok parsed after) :
    ∃ parser found,
      entry.options.registry.resolveParser capabilities.toProfile entry.options.context.parser (entered entry) =
        .ok parser found ∧
      pipeline.format capabilities raw entry =
        Run.ofAction (printOn capabilities (capabilities.treeFormat parser) parsed.tree) after := by
  obtain ⟨parser, begun, enters, _⟩ := bind_eq_ok_iff.mp succeeded
  obtain ⟨found, resolves, _⟩ := enter_eq_ok_iff.mp enters
  refine ⟨parser, found, resolves, ?_⟩
  rw [format_eq_of_enter enters, bind_eq_of_ok succeeded]

/-- Printing changes no options, so formatting leaves those that the parse left. -/
theorem ending_format_options (pipeline : Pipeline) (capabilities : Capabilities κ) (raw : String)
    (entry : Invocation κ) :
    (ending (pipeline.format capabilities raw entry)).options =
      (ending (pipeline.parse capabilities raw entry)).options := by
  cases outcome : pipeline.parse capabilities raw entry with
  | error fault after =>
    rw [format_eq_error_of_parse outcome]
    rfl
  | ok parsed after =>
    obtain ⟨parser, _, _, formats⟩ := format_eq_of_parse_ok outcome
    rw [formats]
    exact keeps_options_ofAction _ after

/-! ## What runs before printing -/

/-- What the stock supplies for a parse does not run the factory of this number itself. -/
structure Refrains (stock : Stock κ) (capabilities : Capabilities κ) (id : Nat) : Prop where
  preprocess {parser : κ.Parser} (offered : stock.Offers parserSource? parser) (raw : String) (options : Options κ) :
    Keeps (fun world => world.runs.count id) (capabilities.preprocess parser raw options)
  parse {parser : κ.Parser} (offered : stock.Offers parserSource? parser) (text : String) (options : Options κ) :
    Keeps (fun world => world.runs.count id) (capabilities.parse parser text options)
  beforeParse {hook : κ.Hook} (offered : stock.OffersHook hook) (text : String) :
    Keeps (fun invocation => invocation.world.runs.count id) (capabilities.beforeParse hook text)
  afterParse {hook : κ.Hook} (offered : stock.OffersHook hook) (tree : Tree) :
    Keeps (fun invocation => invocation.world.runs.count id) (capabilities.afterParse hook tree)

theorem keeps_count_of_records {σ α : Type} {ids : List Nat} {step : Action σ α} (records : Records ids step)
    {id : Nat} (absent : id ∉ ids) : Keeps (fun world => world.runs.count id) step := by
  intro before
  change (ending (step before)).runs.count id = before.runs.count id
  rw [records before, List.count_append, List.count_eq_zero_of_not_mem absent, Nat.add_zero]

theorem keeps_count_supplyAll {sources : List (HookSource κ)} {id : Nat}
    (absent : id ∉ sources.filterMap HookSource.id?) :
    Keeps (fun world => world.runs.count id) (supplyAll sources) := by
  induction sources with
  | nil => exact keeps_pure []
  | cons source rest ih =>
    rw [supplyAll_cons]
    cases source with
    | eager hook =>
      exact (keeps_pure [hook]).bind fun _ => (ih absent).bind fun _ => keeps_pure _
    | lazy factory =>
      have numbered : (HookSource.lazy factory :: rest).filterMap HookSource.id? =
          [factory.id] ++ rest.filterMap HookSource.id? := rfl
      rw [numbered, List.mem_append, not_or] at absent
      obtain ⟨own, later⟩ := absent
      exact (keeps_count_of_records (records_run factory) own).bind fun _ => (ih later).bind fun _ => keeps_pure _

section
variable {stock : Stock κ} {capabilities : Capabilities κ} {bundles : List (Bundle κ)} {entry : Invocation κ}
  {raw : String} {id : Nat}

theorem keeps_count_resolveHooks {registry : Registry κ} (plugins : registry.plugins = bundles.map Bundle.plugin)
    {treeFormat : String} (absent : id ∉ hookIds treeFormat bundles) :
    Keeps (fun world => world.runs.count id) (registry.resolveHooks treeFormat) := by
  by_cases named : treeFormat = ""
  · subst named
    exact fun _ => rfl
  · rw [resolveHooks_eq named plugins]
    refine (keeps_count_supplyAll absent).bind fun hooks => ?_
    exact Keeps.bind (fun _ => rfl) fun _ => keeps_pure hooks

/-- The factory of a printer is neither the one of the winning parser nor one of hooks. -/
theorem not_mem_of_printer (held : ∀ bundle ∈ bundles, stock.holds bundle) {bundle : Bundle κ}
    {treeFormat : String} {factory : Factory κ.State κ.Printer}
    (declares : stock.Declares bundle (.lazyPrinter treeFormat factory) id) :
    (∀ name, id ∉ winnerIds (winner? parserSource? name bundles)) ∧ ∀ other, id ∉ hookIds other bundles := by
  constructor
  · intro name member
    obtain ⟨plugin, parser, winner, rfl⟩ := winner_of_mem_winnerIds member
    obtain ⟨owner, registered, _, declaration, declared, source⟩ := declared_of_winner? winner
    obtain rfl := parserSource?_eq_lazy source
    obtain ⟨_, never⟩ := declares.unique ⟨held owner registered, declared, rfl⟩
    cases never
  · intro other member
    obtain ⟨owner, registered, hooks, declared, rfl⟩ := mem_hookIds_iff.mp member
    obtain ⟨_, never⟩ := declares.unique ⟨held owner registered, declared, rfl⟩
    cases never

/-- The options are these, and the factory of this number has run so many times. -/
def Stands (options : Options κ) (id times : Nat) (invocation : Invocation κ) : Prop :=
  invocation.options = options ∧ invocation.world.runs.count id = times

section
variable {options : Options κ} {times : Nat}

theorem preserves_stands {α : Type} {action : Options κ → Action κ.State α}
    (keeps : Keeps (fun world => world.runs.count id) (action options)) :
    Preserves (Stands options id times) (Run.ofAction action) := by
  rintro before ⟨rfl, counted⟩
  have kept := keeps before.world
  unfold Run.ofAction
  generalize action before.options before.world = outcome at kept ⊢
  cases outcome with
  | ok value world => exact ⟨rfl, kept.trans counted⟩
  | error fault world => exact ⟨rfl, kept.trans counted⟩

theorem preserves_enter (registered : options.registry.plugins = bundles.map Bundle.plugin)
    (absent : id ∉ winnerIds (winner? parserSource? options.context.parser bundles)) (profile : Profile κ) :
    Preserves (Stands options id times) (enter profile) := by
  refine preserves_stands (Keeps.bind (fun _ => rfl) fun _ => ?_)
  exact keeps_count_of_records (records_resolveParser registered profile _) absent

theorem preserves_gather (registered : options.registry.plugins = bundles.map Bundle.plugin) {profile : Profile κ}
    {parser : κ.Parser} (absent : id ∉ hookIds (profile.treeFormat parser) bundles) :
    Preserves (Stands options id times) (gather profile parser) := by
  refine (preserves_stands (keeps_count_resolveHooks registered absent)).bind fun resolved => ?_
  exact preserves_stands fun _ => rfl

end

variable {fault : Fault} {after : Invocation κ}

/-- A parse that fails early has run no factory of a printer, and neither has one whose calls begin. -/
theorem count_of_early (registered : entry.options.registry.plugins = bundles.map Bundle.plugin)
    (held : ∀ bundle ∈ bundles, stock.holds bundle) (refrains : Refrains stock capabilities id)
    (own : ∀ name, id ∉ winnerIds (winner? parserSource? name bundles)) (hooks : ∀ other, id ∉ hookIds other bundles)
    (early : Early capabilities raw entry fault after) :
    after.world.runs.count id = entry.world.runs.count id := by
  have entering : Preserves (Stands entry.options id (entry.world.runs.count id)) (enter capabilities.toProfile) :=
    preserves_enter registered (own _) _
  have gathering (parser : κ.Parser) :
      Preserves (Stands entry.options id (entry.world.runs.count id)) (gather capabilities.toProfile parser) :=
    preserves_gather registered (hooks _)
  cases early with
  | resolvingParser failed => exact (entering.of_error failed ⟨rfl, rfl⟩).2
  | resolvingHooks enters failed =>
    exact ((gathering _).of_error failed (entering.of_ok enters ⟨rfl, rfl⟩)).2
  | preprocessing enters gathers failed =>
    obtain ⟨_, resolves, _⟩ := enter_eq_ok_iff.mp enters
    have offered := offers_of_resolveParser held registered resolves
    have gathered := (gathering _).of_ok gathers (entering.of_ok enters ⟨rfl, rfl⟩)
    exact ((refrains.preprocess offered raw _).of_error failed).trans gathered.2

theorem count_of_opens (registered : entry.options.registry.plugins = bundles.map Bundle.plugin)
    (held : ∀ bundle ∈ bundles, stock.holds bundle) (refrains : Refrains stock capabilities id)
    (own : ∀ name, id ∉ winnerIds (winner? parserSource? name bundles)) (hooks : ∀ other, id ∉ hookIds other bundles)
    {plan : Plan κ} {text : String} {start : Invocation κ} (opens : Opens capabilities raw entry plan text start) :
    start.world.runs.count id = entry.world.runs.count id := by
  obtain ⟨enters, gathers, preprocesses⟩ := opens
  obtain ⟨_, resolves, _⟩ := enter_eq_ok_iff.mp enters
  have entering : Preserves (Stands entry.options id (entry.world.runs.count id)) (enter capabilities.toProfile) :=
    preserves_enter registered (own _) _
  have gathered := (preserves_gather registered (hooks _)).of_ok gathers (entering.of_ok enters ⟨rfl, rfl⟩)
  have offered := offers_of_resolveParser held registered resolves
  exact ((refrains.preprocess offered raw _).of_ok preprocesses).trans gathered.2

/-- A parse does not run the factory of a printer. -/
theorem count_of_parse (registered : entry.options.registry.plugins = bundles.map Bundle.plugin)
    (held : ∀ bundle ∈ bundles, stock.holds bundle) {bundle : Bundle κ} {treeFormat : String}
    {factory : Factory κ.State κ.Printer} (declares : stock.Declares bundle (.lazyPrinter treeFormat factory) id)
    (refrains : Refrains stock capabilities id) (pipeline : Pipeline) (raw : String) :
    (ending (pipeline.parse capabilities raw entry)).world.runs.count id = entry.world.runs.count id := by
  obtain ⟨own, hooks⟩ := not_mem_of_printer held declares
  rcases early_or_opens capabilities raw entry with ⟨fault, after, early⟩ | ⟨plan, text, start, opens⟩
  · rw [parse_eq_error_of_early early]
    exact count_of_early registered held refrains own hooks early
  · rw [parse_eq_of_opens opens, ← count_of_opens registered held refrains own hooks opens]
    obtain ⟨found, declared, supplied, resolves, _, supplies, selects⟩ := planned_of_opens registered opens
    have offered (hook : κ.Hook) (member : hook ∈ plan.hooks) : stock.OffersHook hook := by
      rw [selects] at member
      exact hook_of_supplied held supplies (List.mem_filter.mp member).1
    have parses (made : String) := refrains.parse (offers_of_resolveParser held registered resolves) made
    have proceeds : Keeps (fun invocation => invocation.world.runs.count id)
        (pipeline.proceed capabilities raw plan text) := by
      refine keeps_iff_preserves.mpr fun times => preserves_proceed (fun _ _ counted => counted)
        (fun _ _ counted => counted) (fun made => ?_) ?_ ?_ pipeline raw text
      · intro before counted
        rw [ending_ofAction]
        exact (parses made before.options before.world).trans counted
      · intro hook member made
        exact keeps_iff_preserves.mp (refrains.beforeParse (offered hook member) made) times
      · intro hook member tree
        exact keeps_iff_preserves.mp (refrains.afterParse (offered hook member) tree) times
    exact proceeds start

end

/-! ## Formatting -/

/-- Formatting is the parse and then printing. When the parse fails, formatting fails with its fault and
    leaves what it left, and nothing is printed. When the parse succeeds, the printer is resolved from the
    plugins, on the options and in the world that the parse left, for the tree format of the parser that was
    resolved at its beginning, and works on the tree of the parse; the faults of resolving and of printing
    are those of formatting, and the options stay as the parse left them. The parse runs no factory
    of a printer, unless a capability does so itself. -/
theorem format_is_parse_then_print (pipeline : Pipeline) (capabilities : Capabilities κ) (raw : String)
    (entry : Invocation κ) :
    (∀ fault after, pipeline.parse capabilities raw entry = .error fault after →
      pipeline.format capabilities raw entry = .error fault after) ∧
    (∀ parsed after, pipeline.parse capabilities raw entry = .ok parsed after →
      ∃ parser found,
        entry.options.registry.resolveParser capabilities.toProfile entry.options.context.parser (entered entry) =
          .ok parser found ∧
        (∀ fault world,
          after.options.registry.resolvePrinter (capabilities.treeFormat parser) after.world = .error fault world →
          pipeline.format capabilities raw entry = .error fault { after with world }) ∧
        ∀ printer resolved,
          after.options.registry.resolvePrinter (capabilities.treeFormat parser) after.world = .ok printer resolved →
          (∀ fault world, capabilities.print printer parsed.tree after.options resolved = .error fault world →
            pipeline.format capabilities raw entry = .error fault { after with world }) ∧
          ∀ output world, capabilities.print printer parsed.tree after.options resolved = .ok output world →
            pipeline.format capabilities raw entry = .ok output { after with world }) ∧
    (ending (pipeline.format capabilities raw entry)).options =
      (ending (pipeline.parse capabilities raw entry)).options ∧
    ∀ (stock : Stock κ) (bundles : List (Bundle κ)) (bundle : Bundle κ) (treeFormat : String)
      (factory : Factory κ.State κ.Printer) (id : Nat),
      entry.options.registry.plugins = bundles.map Bundle.plugin → (∀ bundle ∈ bundles, stock.holds bundle) →
      stock.Declares bundle (.lazyPrinter treeFormat factory) id → Refrains stock capabilities id →
      (ending (pipeline.parse capabilities raw entry)).world.runs.count id = entry.world.runs.count id := by
  refine ⟨fun _ _ => format_eq_error_of_parse, ?_, ending_format_options pipeline capabilities raw entry, ?_⟩
  · intro parsed after succeeded
    obtain ⟨parser, found, resolves, formats⟩ := format_eq_of_parse_ok succeeded
    refine ⟨parser, found, resolves, ?_, ?_⟩
    · intro fault world failed
      rw [formats]
      exact ofAction_eq_error_iff.mpr ⟨world, bind_eq_of_error failed _, rfl⟩
    · intro printer resolved succeeds
      constructor
      · intro fault world failed
        rw [formats]
        exact ofAction_eq_error_iff.mpr ⟨world, (bind_eq_of_ok succeeds _).trans failed, rfl⟩
      · intro output world printed
        rw [formats]
        exact ofAction_eq_ok_iff.mpr ⟨world, (bind_eq_of_ok succeeds _).trans printed, rfl⟩
  · intro stock bundles bundle treeFormat factory id registered held declares refrains
    exact count_of_parse registered held declares refrains pipeline raw

section
open Script

theorem refrains_shared : Refrains sharedStock Script.capabilities 2 where
  preprocess offered raw options := by
    obtain rfl := eq_echoParser_of_offers offered
    exact fun _ => rfl
  parse offered text options := by
    obtain rfl := eq_echoParser_of_offers offered
    exact fun _ => rfl
  beforeParse offered := absurd offered (not_offersHook_shared _)
  afterParse offered := absurd offered (not_offersHook_shared _)

/-- A hook that takes all plugins out of the options leaves the parse alone, but not the printing after it,
    which asks for the tree format of the parser that ran. And a parse runs no factory of a printer that
    stands ready. -/
theorem format_despite_clearing :
    (∃ parsed after, Pipeline.parse {} Script.capabilities "a" wordEntry = .ok parsed after ∧
      after.options.registry.plugins = [] ∧
      Pipeline.format {} Script.capabilities "a" wordEntry =
        .error (Registry.unknownTreeFormat "words-ast") after) ∧
    sharedStock.Declares shared (.lazyPrinter "x-ast" (counted 2 "lazy_printer" (pure jsonPrinter))) 2 ∧
      Refrains sharedStock Script.capabilities 2 ∧
      (ending (Pipeline.parse {} Script.capabilities "a" twice)).world.runs.count 2 = 0 := by
  constructor
  · have succeeds : ∃ parsed after, Pipeline.parse {} Script.capabilities "a" wordEntry = .ok parsed after ∧
        after.options.registry = {} := ⟨_, _, rfl, rfl⟩
    obtain ⟨parsed, after, whole, cleared⟩ := succeeds
    obtain ⟨parser, _, resolves, fails, _⟩ :=
      (format_is_parse_then_print {} Script.capabilities "a" wordEntry).2.1 parsed after whole
    have own : wordEntry.options.registry.resolveParser Script.capabilities.toProfile "words" (entered wordEntry) =
        .ok wordParser _ := rfl
    cases own.symm.trans resolves
    have missing : after.options.registry.resolvePrinter "words-ast" after.world =
        .error (Registry.unknownTreeFormat "words-ast") after.world := by
      rw [cleared]
      rfl
    exact ⟨parsed, after, whole, by rw [cleared], fails _ _ missing⟩
  · have declares : sharedStock.Declares shared
        (.lazyPrinter "x-ast" (counted 2 "lazy_printer" (pure jsonPrinter))) 2 :=
      ⟨rfl, List.mem_cons_of_mem _ (List.mem_cons_of_mem _ List.mem_cons_self), rfl⟩
    refine ⟨declares, refrains_shared, ?_⟩
    exact (format_is_parse_then_print {} Script.capabilities "a" twice).2.2.2 sharedStock [shared, shared] shared
      "x-ast" _ 2 rfl held_shared declares refrains_shared

end

end Polyglot.Pipeline
