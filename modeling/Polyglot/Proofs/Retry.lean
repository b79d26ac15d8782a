import Mathlib.Data.List.Forall2
import Polyglot.Proofs.Abreast

/-!
# Trying again

A parse that fails before its first call leaves its options as they were, and nothing is kept
of what factories built for it. So once no factory fails any more, the same options parse as
they would have parsed at first with factories that never fail (`retry_of_early`).
-/

namespace Polyglot

open Outcome Pipeline Declared

/-- How often factories fail, and which states of the plugins count as alike. -/
structure Recovery (σ : Type) where
  /-- The number of runs of each factory after which it no longer fails. -/
  failures : Nat → Nat
  alike : σ → σ → Prop

namespace Recovery

variable {κ : Kit} {σ α : Type}

/-- A world in which all factories have stopped failing, and a world of factories that never fail. -/
structure WorldMended (recovery : Recovery σ) (again first : World σ) : Prop where
  recovered (id : Nat) : recovery.failures id ≤ again.runs.count id
  alike : recovery.alike again.state first.state

/-- A factory that does, once it has stopped failing, what another one does at each of its runs. -/
def FactoryMended (recovery : Recovery σ) (flaky sound : Factory σ α) : Prop :=
  ∀ earlier, recovery.failures flaky.id ≤ earlier → ∀ run state other, recovery.alike state other →
    Agree recovery.alike (flaky.build earlier state) (sound.build run other)

/-- A declaration, and the same one with a factory that never fails. -/
inductive DeclarationMended (recovery : Recovery κ.State) : Declaration κ → Declaration κ → Prop
  | parser (name : String) (parser : κ.Parser) : DeclarationMended recovery (.parser name parser) (.parser name parser)
  | lazyParser (name : String) {flaky sound : Factory κ.State κ.Parser} (mended : recovery.FactoryMended flaky sound) :
      DeclarationMended recovery (.lazyParser name flaky) (.lazyParser name sound)
  | printer (treeFormat : String) (printer : κ.Printer) :
      DeclarationMended recovery (.printer treeFormat printer) (.printer treeFormat printer)
  | lazyPrinter (treeFormat : String) {flaky sound : Factory κ.State κ.Printer}
      (mended : recovery.FactoryMended flaky sound) :
      DeclarationMended recovery (.lazyPrinter treeFormat flaky) (.lazyPrinter treeFormat sound)
  | hook (treeFormat : String) (hook : κ.Hook) :
      DeclarationMended recovery (.hook treeFormat hook) (.hook treeFormat hook)
  | lazyHooks (treeFormat : String) {flaky sound : Factory κ.State (List κ.Hook)}
      (mended : recovery.FactoryMended flaky sound) :
      DeclarationMended recovery (.lazyHooks treeFormat flaky) (.lazyHooks treeFormat sound)

/-- A bundle, and the same one with factories that never fail. -/
structure BundleMended (recovery : Recovery κ.State) (flaky sound : Bundle κ) : Prop where
  name : flaky.name = sound.name
  declarations : List.Forall₂ recovery.DeclarationMended flaky.declarations sound.declarations

/-- Capabilities that resolve alike. -/
def DeferredMended (recovery : Recovery σ) (flaky sound : Deferred σ α) : Prop :=
  Matches recovery.WorldMended flaky.resolve sound.resolve

/-- Plugins of one name whose capabilities resolve alike. -/
structure PluginMended (recovery : Recovery κ.State) (flaky sound : Plugin κ) : Prop where
  name : flaky.name = sound.name
  parser (name : String) : Option.Rel recovery.DeferredMended (flaky.parser? name) (sound.parser? name)
  printer (treeFormat : String) :
    Option.Rel recovery.DeferredMended (flaky.printer? treeFormat) (sound.printer? treeFormat)
  hooks (treeFormat : String) :
    Option.Rel recovery.DeferredMended (flaky.hooks? treeFormat) (sound.hooks? treeFormat)

/-- Options that are the same but for plugins whose capabilities resolve alike. -/
structure OptionsMended (recovery : Recovery κ.State) (flaky sound : Options κ) : Prop where
  plugins : List.Forall₂ recovery.PluginMended flaky.registry.plugins sound.registry.plugins
  context : flaky.context = sound.context
  committed : flaky.committed = sound.committed
  settings : flaky.settings = sound.settings

structure InvocationMended (recovery : Recovery κ.State) (again first : Invocation κ) : Prop where
  options : recovery.OptionsMended again.options first.options
  world : recovery.WorldMended again.world first.world

/-- Capabilities that do not see whether factories failed earlier: what they do differs in no more than
    states that are alike, and plugins that they register resolve alike. -/
structure Indifferent (recovery : Recovery κ.State) (capabilities : Capabilities κ) : Prop where
  preprocess (parser : κ.Parser) (raw : String) {flaky sound : Options κ}
    (mended : recovery.OptionsMended flaky sound) :
    Matches recovery.WorldMended (capabilities.preprocess parser raw flaky) (capabilities.preprocess parser raw sound)
  parse (parser : κ.Parser) (text : String) {flaky sound : Options κ} (mended : recovery.OptionsMended flaky sound) :
    Matches recovery.WorldMended (capabilities.parse parser text flaky) (capabilities.parse parser text sound)
  print (printer : κ.Printer) (tree : Tree) {flaky sound : Options κ} (mended : recovery.OptionsMended flaky sound) :
    Matches recovery.WorldMended (capabilities.print printer tree flaky) (capabilities.print printer tree sound)
  beforeParse (hook : κ.Hook) (text : String) :
    Matches recovery.InvocationMended (capabilities.beforeParse hook text) (capabilities.beforeParse hook text)
  afterParse (hook : κ.Hook) (tree : Tree) :
    Matches recovery.InvocationMended (capabilities.afterParse hook tree) (capabilities.afterParse hook tree)

/-! ## Plugins -/

theorem FactoryMended.run {recovery : Recovery σ} {flaky sound : Factory σ α}
    (mended : recovery.FactoryMended flaky sound) : Matches recovery.WorldMended flaky.run sound.run := by
  intro again first worlds
  have agree := mended _ (worlds.recovered flaky.id) (first.runs.count sound.id) _ _ worlds.alike
  -- A run is put on record, so the counts of runs do not fall below what the factories need.
  have recovered (id : Nat) : recovery.failures id ≤ (again.runs ++ [flaky.id]).count id := by
    have enough := worlds.recovered id
    rw [List.count_append]
    omega
  simp only [Factory.run, Action.ofState]
  generalize flaky.build (again.runs.count flaky.id) again.state = made at agree ⊢
  generalize sound.build (first.runs.count sound.id) first.state = matched at agree ⊢
  cases agree with
  | ok states => exact .ok ⟨recovered, states⟩
  | error states => exact .error ⟨recovered, states⟩

theorem deferredMended_eager (recovery : Recovery σ) (value : α) :
    recovery.DeferredMended (.eager value) (.eager value) :=
  matches_pure value

theorem DeferredMended.append {recovery : Recovery σ} {head sound tail more : Deferred σ (List α)}
    (first : recovery.DeferredMended head sound) (second : recovery.DeferredMended tail more) :
    recovery.DeferredMended (head.append tail) (sound.append more) := by
  unfold DeferredMended
  rw [Deferred.resolve_append, Deferred.resolve_append]
  exact first.bind fun _ => second.bind fun _ => matches_pure _

section
variable {recovery : Recovery κ.State} {flaky sound : Plugin κ}

theorem PluginMended.setParser (mended : recovery.PluginMended flaky sound) (name : String)
    {parser again : Deferred κ.State κ.Parser} (resolve : recovery.DeferredMended parser again) :
    recovery.PluginMended (flaky.setParser name parser) (sound.setParser name again) where
  name := mended.name
  parser other := by
    rw [Plugin.parser?_setParser, Plugin.parser?_setParser]
    split
    · exact .some resolve
    · exact mended.parser other
  printer := mended.printer
  hooks := mended.hooks

theorem PluginMended.setPrinter (mended : recovery.PluginMended flaky sound) (treeFormat : String)
    {printer again : Deferred κ.State κ.Printer} (resolve : recovery.DeferredMended printer again) :
    recovery.PluginMended (flaky.setPrinter treeFormat printer) (sound.setPrinter treeFormat again) where
  name := mended.name
  parser := mended.parser
  printer other := by
    rw [Plugin.printer?_setPrinter, Plugin.printer?_setPrinter]
    split
    · exact .some resolve
    · exact mended.printer other
  hooks := mended.hooks

theorem PluginMended.addHooks (mended : recovery.PluginMended flaky sound) (treeFormat : String)
    {tail again : Deferred κ.State (List κ.Hook)} (resolve : recovery.DeferredMended tail again) :
    recovery.PluginMended (flaky.addHooks treeFormat tail) (sound.addHooks treeFormat again) where
  name := mended.name
  parser := mended.parser
  printer := mended.printer
  hooks other := by
    by_cases same : other = treeFormat
    · subst same
      rw [Plugin.hooks?_addHooks_self, Plugin.hooks?_addHooks_self]
      have heads := mended.hooks other
      generalize flaky.hooks? other = head at heads ⊢
      generalize sound.hooks? other = first at heads ⊢
      cases heads with
      | none => exact .some resolve
      | some head => exact .some (head.append resolve)
    · rw [Plugin.hooks?_addHooks_of_ne _ same, Plugin.hooks?_addHooks_of_ne _ same]
      exact mended.hooks other

theorem PluginMended.declare (mended : recovery.PluginMended flaky sound) {declaration again : Declaration κ}
    (declared : recovery.DeclarationMended declaration again) :
    recovery.PluginMended (flaky.declare declaration) (sound.declare again) := by
  cases declared with
  | parser name parser => exact mended.setParser name (deferredMended_eager _ _)
  | lazyParser name factory => exact mended.setParser name factory.run
  | printer treeFormat printer => exact mended.setPrinter treeFormat (deferredMended_eager _ _)
  | lazyPrinter treeFormat factory => exact mended.setPrinter treeFormat factory.run
  | hook treeFormat hook => exact mended.addHooks treeFormat (deferredMended_eager _ _)
  | lazyHooks treeFormat factory => exact mended.addHooks treeFormat factory.run

end

theorem BundleMended.plugin {recovery : Recovery κ.State} {flaky sound : Bundle κ}
    (mended : recovery.BundleMended flaky sound) : recovery.PluginMended flaky.plugin sound.plugin := by
  have bare : recovery.PluginMended ({ name := flaky.name } : Plugin κ) { name := sound.name } :=
    ⟨mended.name, fun _ => .none, fun _ => .none, fun _ => .none⟩
  exact List.rel_foldl (fun _ _ plugins _ _ declared => plugins.declare declared) bare mended.declarations

/-! ## Registries -/

section
variable {recovery : Recovery κ.State}

/-- What is reported makes no difference. -/
theorem matches_report (recovery : Recovery σ) (event other : Event) :
    Matches recovery.WorldMended (Action.report event) (Action.report other) :=
  fun _ _ worlds => .ok ⟨worlds.recovered, worlds.alike⟩

/-- Lookups that fail alike, or find plugins whose capabilities resolve alike. -/
inductive LookupMended (recovery : Recovery κ.State) : Except Fault (Plugin κ) → Except Fault (Plugin κ) → Prop
  | found {plugin other : Plugin κ} (mended : recovery.PluginMended plugin other) :
      LookupMended recovery (.ok plugin) (.ok other)
  | missing (fault : Fault) : LookupMended recovery (.error fault) (.error fault)

theorem LookupMended.bind {flaky sound : Except Fault (Plugin κ)} (lookup : recovery.LookupMended flaky sound)
    {rest more : Plugin κ → Action κ.State α}
    (others : ∀ plugin other, recovery.PluginMended plugin other →
      Matches recovery.WorldMended (rest plugin) (more other)) :
    Matches recovery.WorldMended (Action.ofExcept flaky >>= rest) (Action.ofExcept sound >>= more) := by
  cases lookup with
  | found mended => exact others _ _ mended
  | missing fault => exact matches_throw fault

theorem last?_mended {flaky sound : List (Plugin κ)} (plugins : List.Forall₂ recovery.PluginMended flaky sound)
    {p : Plugin κ → Bool} (shared : ∀ plugin other, recovery.PluginMended plugin other → p plugin = p other) :
    Option.Rel recovery.PluginMended (flaky.find? p) (sound.find? p) := by
  induction plugins with
  | nil => exact .none
  | @cons plugin other _ _ mended _ ih =>
    rw [List.find?_cons, List.find?_cons, ← shared plugin other mended]
    cases p plugin with
    | true => exact .some mended
    | false => exact ih

/-- Parsers and printers are looked up alike: by a name that is required, from the last plugin backwards. -/
theorem lookupMended_last? {flaky sound : Registry κ}
    (plugins : List.Forall₂ recovery.PluginMended flaky.plugins sound.plugins) {p : Plugin κ → Bool}
    (shared : ∀ plugin other, recovery.PluginMended plugin other → p plugin = p other) (name : String)
    (required unknown : Fault) :
    recovery.LookupMended
      (if name = "" then .error required
        else match flaky.last? p with | some plugin => .ok plugin | none => .error unknown)
      (if name = "" then .error required
        else match sound.last? p with | some plugin => .ok plugin | none => .error unknown) := by
  have last : Option.Rel recovery.PluginMended (flaky.last? p) (sound.last? p) :=
    last?_mended (List.rel_reverse plugins) shared
  split
  · exact .missing required
  · generalize flaky.last? p = plugin at last ⊢
    generalize sound.last? p = other at last ⊢
    cases last with
    | none => exact .missing unknown
    | some mended => exact .found mended

theorem isSome_eq_of_rel {β : Type} {related : α → β → Prop} {first : Option α} {second : Option β}
    (rel : Option.Rel related first second) : first.isSome = second.isSome := by
  cases rel <;> rfl

variable {flaky sound : Registry κ}

theorem matches_resolveParser (plugins : List.Forall₂ recovery.PluginMended flaky.plugins sound.plugins)
    (profile : Profile κ) (name : String) :
    Matches recovery.WorldMended (flaky.resolveParser profile name) (sound.resolveParser profile name) := by
  have lookup : recovery.LookupMended (flaky.findParser name) (sound.findParser name) :=
    lookupMended_last? plugins (fun _ _ mended => isSome_eq_of_rel (mended.parser name)) name _ _
  rw [resolveParser_eq_give, resolveParser_eq_give]
  refine lookup.bind fun plugin other mended => ?_
  rw [mended.name]
  exact matches_give (matches_report recovery) (mended.parser name) _ _ _

theorem matches_resolvePrinter (plugins : List.Forall₂ recovery.PluginMended flaky.plugins sound.plugins)
    (treeFormat : String) :
    Matches recovery.WorldMended (flaky.resolvePrinter treeFormat) (sound.resolvePrinter treeFormat) := by
  have lookup : recovery.LookupMended (flaky.findPrinter treeFormat) (sound.findPrinter treeFormat) :=
    lookupMended_last? plugins (fun _ _ mended => isSome_eq_of_rel (mended.printer treeFormat)) treeFormat _ _
  rw [resolvePrinter_eq_give, resolvePrinter_eq_give]
  refine lookup.bind fun plugin other mended => ?_
  rw [mended.name]
  exact matches_give (matches_report recovery) (mended.printer treeFormat) _ _ _

theorem matches_mapM_ownHooks {first second : List (Plugin κ)}
    (plugins : List.Forall₂ recovery.PluginMended first second) (treeFormat : String) :
    Matches recovery.WorldMended (first.mapM (Registry.ownHooks treeFormat))
      (second.mapM (Registry.ownHooks treeFormat)) := by
  induction plugins with
  | nil => exact matches_pure []
  | cons mended _ ih =>
    rw [List.mapM_cons, List.mapM_cons]
    exact (matches_ownHooks (mended.hooks treeFormat)).bind fun _ => ih.bind fun _ => matches_pure _

theorem matches_resolveHooks (plugins : List.Forall₂ recovery.PluginMended flaky.plugins sound.plugins)
    (treeFormat : String) :
    Matches recovery.WorldMended (flaky.resolveHooks treeFormat) (sound.resolveHooks treeFormat) := by
  unfold Registry.resolveHooks
  split
  · exact matches_throw _
  · exact (matches_mapM_ownHooks plugins treeFormat).bind fun _ =>
      (matches_report _ _ _).bind fun _ => matches_pure _

end

/-! ## Parses -/

section
variable {recovery : Recovery κ.State} {capabilities : Capabilities κ}

theorem matches_ofAction {action other : Options κ → Action κ.State α}
    (same : ∀ flaky sound, recovery.OptionsMended flaky sound →
      Matches recovery.WorldMended (action flaky) (other sound)) :
    Matches recovery.InvocationMended (Run.ofAction action) (Run.ofAction other) := by
  intro again first invocations
  have agree := same _ _ invocations.options _ _ invocations.world
  exact agree_iff_akin.mpr (.ofAction (agree_iff_akin.mp agree) fun _ _ worlds => ⟨invocations.options, worlds⟩)

theorem matches_enter (recovery : Recovery κ.State) (profile : Profile κ) :
    Matches recovery.InvocationMended (enter profile) (enter profile) := by
  refine matches_ofAction fun flaky sound mended => (matches_report _ _ _).bind fun _ => ?_
  rw [mended.context]
  exact matches_resolveParser mended.plugins profile _

theorem matches_gather (recovery : Recovery κ.State) (profile : Profile κ) (parser : κ.Parser) :
    Matches recovery.InvocationMended (gather profile parser) (gather profile parser) := by
  refine (matches_ofAction fun flaky sound mended => matches_resolveHooks mended.plugins _).bind fun resolved => ?_
  refine matches_ofAction fun flaky sound mended => ?_
  rw [mended.context]
  exact fun _ _ worlds => .ok ⟨worlds.recovered, worlds.alike⟩

theorem lenient_mended (recovery : Recovery κ.State) : Lenient recovery.InvocationMended where
  report event other := matches_ofAction fun _ _ _ => matches_report recovery event other
  commit text := by
    rintro again first ⟨⟨plugins, context, _, settings⟩, world⟩
    exact .ok ⟨⟨plugins, context, rfl, settings⟩, world⟩

theorem matches_preprocess (indifferent : recovery.Indifferent capabilities) (parser : κ.Parser) (raw : String) :
    Matches recovery.InvocationMended (Run.ofAction (capabilities.preprocess parser raw))
      (Run.ofAction (capabilities.preprocess parser raw)) :=
  matches_ofAction fun _ _ mended => indifferent.preprocess parser raw mended

theorem matches_proceed (indifferent : recovery.Indifferent capabilities) (pipeline : Pipeline) (raw : String)
    (plan : Plan κ) (text : String) :
    Matches recovery.InvocationMended (pipeline.proceed capabilities raw plan text)
      (pipeline.proceed capabilities raw plan text) := by
  refine (lenient_mended recovery).proceed (fun _ => rfl) (fun made => ?_) ?_ ?_ pipeline raw text
  · exact matches_ofAction fun _ _ mended => indifferent.parse plan.parser made mended
  · exact fun hook _ made => indifferent.beforeParse hook made
  · exact fun hook _ tree => indifferent.afterParse hook tree

theorem matches_parse (indifferent : recovery.Indifferent capabilities) (pipeline : Pipeline) (raw : String) :
    Matches recovery.InvocationMended (pipeline.parse capabilities raw) (pipeline.parse capabilities raw) := by
  rw [parse_eq_proceed]
  refine (matches_enter _ _).bind fun parser => (matches_gather _ _ parser).bind fun hooks => ?_
  exact (matches_preprocess indifferent parser raw).bind fun text => matches_proceed indifferent pipeline raw _ text

theorem matches_format (indifferent : recovery.Indifferent capabilities) (pipeline : Pipeline) (raw : String) :
    Matches recovery.InvocationMended (pipeline.format capabilities raw) (pipeline.format capabilities raw) := by
  rw [format_eq_proceed]
  refine (matches_enter _ _).bind fun parser => (matches_gather _ _ parser).bind fun hooks => ?_
  refine (matches_preprocess indifferent parser raw).bind fun text => ?_
  refine (matches_proceed indifferent pipeline raw _ text).bind fun parsed => ?_
  refine matches_ofAction fun flaky sound mended => ?_
  exact (matches_resolvePrinter mended.plugins _).bind fun printer => indifferent.print printer parsed.tree mended

end

/-! ## After an early failure -/

theorem BundleMended.options {recovery : Recovery κ.State} {bundles sound : List (Bundle κ)} {options : Options κ}
    (registered : options.registry.plugins = bundles.map Bundle.plugin)
    (mended : List.Forall₂ recovery.BundleMended bundles sound) :
    recovery.OptionsMended options { options with registry := ⟨sound.map Bundle.plugin⟩ } where
  plugins := by
    rw [registered, List.forall₂_map_left_iff, List.forall₂_map_right_iff]
    exact mended.imp fun _ _ same => same.plugin
  context := rfl
  committed := rfl
  settings := rfl

/-- Until its first call a parse asks capabilities for no more than their profile and for preprocessing. -/
theorem early_of_eq {capabilities other : Capabilities κ} {raw : String} {entry after : Invocation κ} {fault : Fault}
    (profile : other.toProfile = capabilities.toProfile) (preprocess : other.preprocess = capabilities.preprocess)
    (early : Early capabilities raw entry fault after) : Early other raw entry fault after := by
  cases early with
  | resolvingParser failed =>
    rw [← profile] at failed
    exact .resolvingParser failed
  | resolvingHooks enters failed =>
    rw [← profile] at enters failed
    exact .resolvingHooks enters failed
  | preprocessing enters gathers failed =>
    rw [← profile] at enters gathers
    rw [← preprocess] at failed
    exact .preprocessing enters gathers failed

/-- A parse that fails before its first call, with or without printing, fails so whatever hooks, parsers
    and printers do, for none of them is called; and it leaves its options as they were. Hence, in
    any later world in which all factories have stopped failing, the same options give the result, the fault
    and the final options that they would have given at first with factories that never fail. -/
theorem retry_of_early (pipeline : Pipeline) {capabilities : Capabilities κ} {raw : String}
    {entry after : Invocation κ} {fault : Fault} (early : Early capabilities raw entry fault after) :
    after.options = entry.options ∧
    (∀ other : Capabilities κ, other.toProfile = capabilities.toProfile →
      other.preprocess = capabilities.preprocess →
      pipeline.parse other raw entry = .error fault after ∧ pipeline.format other raw entry = .error fault after) ∧
    ∀ (recovery : Recovery κ.State) (bundles sound : List (Bundle κ)) (later begun : World κ.State),
      entry.options.registry.plugins = bundles.map Bundle.plugin →
      List.Forall₂ recovery.BundleMended bundles sound → recovery.Indifferent capabilities →
      recovery.WorldMended later begun →
      Agree recovery.InvocationMended (pipeline.parse capabilities raw ⟨after.options, later⟩)
        (pipeline.parse capabilities raw ⟨{ entry.options with registry := ⟨sound.map Bundle.plugin⟩ }, begun⟩) ∧
      Agree recovery.InvocationMended (pipeline.format capabilities raw ⟨after.options, later⟩)
        (pipeline.format capabilities raw
          ⟨{ entry.options with registry := ⟨sound.map Bundle.plugin⟩ }, begun⟩) := by
  have kept := options_of_early early
  refine ⟨kept, fun other profile preprocess => ?_, ?_⟩
  · have failed := parse_eq_error_of_early (early_of_eq profile preprocess early) pipeline
    exact ⟨failed, format_eq_error_of_parse failed⟩
  · intro recovery bundles sound later begun registered mended indifferent worlds
    have invocations : recovery.InvocationMended ⟨after.options, later⟩
        ⟨{ entry.options with registry := ⟨sound.map Bundle.plugin⟩ }, begun⟩ :=
      ⟨by rw [kept]; exact BundleMended.options registered mended, worlds⟩
    exact ⟨matches_parse indifferent pipeline raw _ _ invocations,
      matches_format indifferent pipeline raw _ _ invocations⟩

section

/-- Hooks are texts, which are appended to what is to be parsed. -/
def appending : Capabilities ⟨Nat, Unit, Unit, String⟩ where
  treeFormat _ := "ast"
  hookName := id
  hookScope _ := .any
  declares _ _ := true
  preprocess _ raw _ := pure raw
  parse _ text _ := pure (.text text)
  print _ tree _ := pure tree.print
  beforeParse hook text := pure (text ++ hook)
  afterParse _ tree := pure { tree }

/-- A bundle whose parser is not had at first; it keeps count of how often the parser was asked for. -/
def failingOnce : Bundle ⟨Nat, Unit, Unit, String⟩ := ⟨"p", [
  .lazyParser "words" ⟨1, fun earlier => do
    modify (· + 1)
    if earlier = 0 then throw (.internal "not yet.")⟩,
  .hook "ast" ("!" : String)]⟩

def neverFailing : Bundle ⟨Nat, Unit, Unit, String⟩ :=
  ⟨"p", [.lazyParser "words" ⟨1, fun _ => pure ()⟩, .hook "ast" ("!" : String)]⟩

/-- The factory of the parser fails once, and its count makes no difference. -/
def once : Recovery Nat := ⟨fun id => [1].count id, fun _ _ => True⟩

theorem mended_failingOnce : once.BundleMended failingOnce neverFailing where
  name := rfl
  declarations := by
    have factories : once.FactoryMended (⟨1, fun earlier => do
        modify (· + 1)
        if earlier = 0 then throw (.internal "not yet.")⟩ : Factory Nat Unit) ⟨1, fun _ => pure ()⟩ := by
      intro earlier enough run state other _
      obtain ⟨more, rfl⟩ := Nat.exists_eq_add_of_le' enough
      exact .ok trivial
    exact .cons (.lazyParser "words" factories) (.cons (.hook "ast" _) .nil)

theorem indifferent_appending : once.Indifferent appending where
  preprocess _ _ _ _ _ := matches_pure _
  parse _ _ _ _ _ := matches_pure _
  print _ _ _ _ _ := matches_pure _
  beforeParse _ _ := matches_pure _
  afterParse _ _ := matches_pure _

def failingEntry : Invocation ⟨Nat, Unit, Unit, String⟩ := ⟨.new ⟨[failingOnce.plugin]⟩ "words", { state := 0 }⟩

def soundEntry : Invocation ⟨Nat, Unit, Unit, String⟩ := ⟨.new ⟨[neverFailing.plugin]⟩ "words", { state := 0 }⟩

/-- The second parse of the same options is what the first one is with the factory that never fails. -/
theorem retry_of_failingOnce : ∃ fault after parsed again first,
    Early appending "a" failingEntry fault after ∧
      failingEntry.options.registry.plugins = [failingOnce].map Bundle.plugin ∧
      List.Forall₂ once.BundleMended [failingOnce] [neverFailing] ∧ once.Indifferent appending ∧
      once.WorldMended after.world { state := 0 } ∧
      Pipeline.parse {} appending "a" failingEntry = .error fault after ∧
      Pipeline.parse {} appending "a" ⟨after.options, after.world⟩ = .ok parsed again ∧
      Pipeline.parse {} appending "a" soundEntry = .ok parsed first ∧ parsed.text = "a!" := by
  have fails : ∃ after, Early appending "a" failingEntry (.internal "not yet.") after ∧ after.world.runs = [1] :=
    ⟨_, .resolvingParser rfl, rfl⟩
  have succeeds : ∃ parsed first, Pipeline.parse {} appending "a" soundEntry = .ok parsed first ∧
      parsed.text = "a!" := ⟨_, _, rfl, rfl⟩
  obtain ⟨after, early, runs⟩ := fails
  obtain ⟨parsed, first, succeeded, answered⟩ := succeeds
  have bundles : List.Forall₂ once.BundleMended [failingOnce] [neverFailing] := .cons mended_failingOnce .nil
  have worlds : once.WorldMended after.world { state := 0 } := ⟨fun id => by rw [runs]; exact Nat.le_refl _, trivial⟩
  obtain ⟨_, others, retried⟩ := retry_of_early {} early
  obtain ⟨failed, _⟩ := others appending rfl rfl
  obtain ⟨agree, _⟩ := retried once _ _ _ _ rfl bundles indifferent_appending worlds
  change Agree _ _ (Pipeline.parse {} appending "a" soundEntry) at agree
  rw [succeeded] at agree
  generalize outcome : Pipeline.parse {} appending "a" ⟨after.options, after.world⟩ = result at agree
  cases agree with
  | ok _ =>
    exact ⟨_, after, parsed, _, first, early, rfl, bundles, indifferent_appending, worlds, failed, outcome,
      succeeded, answered⟩

end

end Recovery

end Polyglot
