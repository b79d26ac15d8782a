import Polyglot.Proofs.Declared
import Polyglot.Script.Build

/-!
# Eager and lazy hooks

However the declarations of a plugin are mixed, it has hooks for a tree format just when one of them is for it, and
these are lazy just when one of them is a factory (`Tagged`, kept by each declaration). No factory runs while
a plugin is put together; each resolving of lazy hooks runs every factory once (`laziness_of_declarations`).
-/

namespace Polyglot

namespace Declared

open Outcome Registry

variable {κ : Kit}

/-- The sources of the hooks that a bundle declares for a tree format, in order. -/
def Bundle.sources (bundle : Bundle κ) (treeFormat : String) : List (HookSource κ) :=
  bundle.declarations.filterMap (sourceOf? treeFormat)

def HookSource.isLazy : HookSource κ → Bool
  | .eager _ => false
  | .lazy _ => true

/-- The plugin holds hooks of the tree format if there are sources, and holds them lazily if one of these is lazy. -/
structure Tagged (treeFormat : String) (plugin : Plugin κ) (sources : List (HookSource κ)) : Prop where
  none_iff : plugin.hooks? treeFormat = none ↔ sources = []
  isLazy_eq : ∀ deferred, plugin.hooks? treeFormat = some deferred → deferred.isLazy = sources.any HookSource.isLazy

section
variable {treeFormat : String} {plugin : Plugin κ} {sources : List (HookSource κ)}

/-! ## What each declaration keeps -/

theorem Tagged.addHooks_self (tagged : Tagged treeFormat plugin sources) {tail : Deferred κ.State (List κ.Hook)}
    {source : HookSource κ} (same : tail.isLazy = source.isLazy) :
    Tagged treeFormat (plugin.addHooks treeFormat tail) (sources ++ [source]) where
  none_iff := by simp [Plugin.hooks?_addHooks_self]
  isLazy_eq := by
    rintro deferred found
    rw [Plugin.hooks?_addHooks_self, Option.some.injEq] at found
    subst found
    rw [List.any_append, List.any_cons, List.any_nil, Bool.or_false, ← same]
    cases held : plugin.hooks? treeFormat with
    | none => rw [tagged.none_iff.mp held, List.any_nil, Bool.false_or, Option.elim_none]
    | some head => rw [Option.elim_some, Deferred.isLazy_append, tagged.isLazy_eq head held]

theorem Tagged.congr (tagged : Tagged treeFormat plugin sources) {other : Plugin κ}
    (same : other.hooks? treeFormat = plugin.hooks? treeFormat) : Tagged treeFormat other sources where
  none_iff := same ▸ tagged.none_iff
  isLazy_eq := same ▸ tagged.isLazy_eq

/-- A declaration adds its source, if it is one of the tree format, and leaves the tag alone if it is not. -/
theorem Tagged.declare (tagged : Tagged treeFormat plugin sources) (declaration : Declaration κ) :
    Tagged treeFormat (plugin.declare declaration) (sources ++ (sourceOf? treeFormat declaration).toList) := by
  have added (other : String) (tail : Deferred κ.State (List κ.Hook)) (source : HookSource κ)
      (same : tail.isLazy = source.isLazy) :
      Tagged treeFormat (plugin.addHooks other tail)
        (sources ++ (if other = treeFormat then some source else none).toList) := by
    by_cases this : other = treeFormat
    · subst this
      rw [if_pos rfl]
      exact tagged.addHooks_self same
    · rw [if_neg this, Option.toList_none, List.append_nil]
      exact tagged.congr (Plugin.hooks?_addHooks_of_ne plugin (Ne.symm this) tail)
  have kept : Tagged treeFormat plugin (sources ++ []) := (List.append_nil sources).symm ▸ tagged
  cases declaration with
  | hook other hook => exact added other (.eager [hook]) (.eager hook) rfl
  | lazyHooks other factory => exact added other (.lazy factory.run) (.lazy factory) rfl
  | parser name parser => exact kept.congr rfl
  | lazyParser name factory => exact kept.congr rfl
  | printer other printer => exact kept.congr rfl
  | lazyPrinter other factory => exact kept.congr rfl

theorem Tagged.foldl_declare (tagged : Tagged treeFormat plugin sources) (declarations : List (Declaration κ)) :
    Tagged treeFormat (declarations.foldl Plugin.declare plugin)
      (sources ++ declarations.filterMap (sourceOf? treeFormat)) := by
  induction declarations generalizing plugin sources with
  | nil => simpa using tagged
  | cons declaration rest ih =>
    rw [List.foldl_cons, List.filterMap_eq_flatMap_toList, List.flatMap_cons, ← List.filterMap_eq_flatMap_toList,
      ← List.append_assoc]
    exact ih (tagged.declare declaration)

end

/-- Whatever the order of its declarations, a plugin is tagged by those for the tree format. -/
theorem tagged_plugin (bundle : Bundle κ) (treeFormat : String) :
    Tagged treeFormat bundle.plugin (bundle.sources treeFormat) := by
  have empty : Tagged treeFormat ({ name := bundle.name } : Plugin κ) [] := ⟨by simp [Plugin.hooks?], nofun⟩
  exact empty.foldl_declare bundle.declarations

theorem mem_sources_eager_iff {bundle : Bundle κ} {treeFormat : String} {hook : κ.Hook} :
    .eager hook ∈ bundle.sources treeFormat ↔ .hook treeFormat hook ∈ bundle.declarations := by
  rw [Bundle.sources, List.mem_filterMap]
  constructor
  · rintro ⟨declaration, member, source⟩
    cases declaration <;> simp_all [sourceOf?]
  · exact fun member => ⟨_, member, if_pos rfl⟩

theorem mem_sources_lazy_iff {bundle : Bundle κ} {treeFormat : String} {factory : Factory κ.State (List κ.Hook)} :
    .lazy factory ∈ bundle.sources treeFormat ↔ .lazyHooks treeFormat factory ∈ bundle.declarations := by
  rw [Bundle.sources, List.mem_filterMap]
  constructor
  · rintro ⟨declaration, member, source⟩
    cases declaration <;> simp_all [sourceOf?]
  · exact fun member => ⟨_, member, if_pos rfl⟩

theorem sources_eq_nil_iff {bundle : Bundle κ} {treeFormat : String} :
    bundle.sources treeFormat = [] ↔
      (∀ hook, .hook treeFormat hook ∉ bundle.declarations) ∧
        ∀ factory, .lazyHooks treeFormat factory ∉ bundle.declarations := by
  rw [List.eq_nil_iff_forall_not_mem]
  constructor
  · intro none
    exact ⟨fun hook declared => none _ (mem_sources_eager_iff.mpr declared),
      fun factory declared => none _ (mem_sources_lazy_iff.mpr declared)⟩
  · rintro ⟨noHook, noFactory⟩ source member
    cases source with
    | eager hook => exact noHook hook (mem_sources_eager_iff.mp member)
    | lazy factory => exact noFactory factory (mem_sources_lazy_iff.mp member)

theorem any_isLazy_sources_iff {bundle : Bundle κ} {treeFormat : String} :
    (bundle.sources treeFormat).any HookSource.isLazy = true ↔
      ∃ factory, .lazyHooks treeFormat factory ∈ bundle.declarations := by
  rw [List.any_eq_true]
  constructor
  · rintro ⟨source, member, isLazy⟩
    cases source with
    | eager hook => cases isLazy
    | lazy factory => exact ⟨factory, mem_sources_lazy_iff.mp member⟩
  · rintro ⟨factory, declared⟩
    exact ⟨.lazy factory, mem_sources_lazy_iff.mpr declared, rfl⟩

/-! ## Resolving -/

/-- Whenever the factory succeeds, it gives the same. -/
def Consistent {σ α : Type} (factory : Factory σ α) : Prop :=
  ∀ before value after begun other last, factory.run before = .ok value after → factory.run begun = .ok other last →
    other = value

theorem resolve_eq_supplyAll {bundle : Bundle κ} {treeFormat : String} {deferred : Deferred κ.State (List κ.Hook)}
    (held : bundle.plugin.hooks? treeFormat = some deferred) :
    deferred.resolve = supplyAll (bundle.sources treeFormat) := by
  have own := ownHooks_plugin treeFormat bundle
  rw [ownHooks, held] at own
  exact own

theorem hooks_eq_of_consistent {sources : List (HookSource κ)} {before after begun last : World κ.State}
    {hooks again : List κ.Hook} (consistent : ∀ factory, .lazy factory ∈ sources → Consistent factory)
    (first : Supplied sources before hooks after) (second : Supplied sources begun again last) : again = hooks := by
  induction first generalizing begun again with
  | done =>
    cases second
    rfl
  | eager _ ih =>
    cases second with
    | eager others =>
      exact congrArg (_ :: ·) (ih (fun factory member => consistent factory (List.mem_cons_of_mem _ member)) others)
  | lazy succeeded _ ih =>
    cases second with
    | lazy once others =>
      rw [consistent _ List.mem_cons_self _ _ _ _ _ _ succeeded once,
        ih (fun factory member => consistent factory (List.mem_cons_of_mem _ member)) others]

/-! ## Building -/

theorem keeps_runs_ofState {σ α : Type} (action : EStateM Fault σ α) : Keeps World.runs (Action.ofState action) := by
  intro before
  unfold Action.ofState
  cases action before.state <;> rfl

theorem keeps_ofState {σ α ρ : Type} {view : σ → ρ} {action : EStateM Fault σ α} (keeps : Keeps view action) :
    Keeps (fun world => view world.state) (Action.ofState action) := by
  intro before
  have kept := keeps before.state
  unfold Action.ofState
  cases made : action before.state with
  | ok value after =>
    rw [made] at kept
    exact kept
  | error fault after =>
    rw [made] at kept
    exact kept

section
open Script

theorem keeps_entries_newFactory {α : Type} (part subject : String) (failing : Option Failing) (build : Build α) :
    Keeps Journal.entries (newFactory part subject failing build) := fun _ => rfl

theorem keeps_entries_hookBuild (script : HookScript PluginScript) : Keeps Journal.entries script.build := by
  intro before
  unfold HookScript.build
  cases script.scope <;> rfl

theorem keeps_entries_partBuild (plugin : String) (part : Script.Part PluginScript) :
    Keeps Journal.entries (part.build plugin) := by
  cases part with
  | parser name script => exact keeps_pure _
  | printer treeFormat script => exact keeps_pure _
  | hook treeFormat script => exact (keeps_entries_hookBuild script).bind fun _ => keeps_pure _
  | lazyParser name failing script => exact Keeps.bind (keeps_entries_newFactory _ _ _ _) fun _ => keeps_pure _
  | lazyPrinter treeFormat failing script => exact Keeps.bind (keeps_entries_newFactory _ _ _ _) fun _ => keeps_pure _
  | lazyHooks treeFormat failing scripts => exact Keeps.bind (keeps_entries_newFactory _ _ _ _) fun _ => keeps_pure _

/-- A plugin that is built enters no run of a factory in the journal. -/
theorem keeps_entries_build (script : PluginScript) : Keeps Journal.entries script.build := by
  cases script with
  | languages => exact keeps_pure _
  | scripted name parts => exact (Keeps.mapM (keeps_entries_partBuild name) parts).bind fun _ => keeps_pure _

end

/-! ## The hooks of a plugin -/

/-- A plugin has hooks for a tree format just when some are declared for it, one by one or by a factory, and these are
    lazy just when a factory is among the declarations, wherever it stands. Building a plugin runs no factory. Eager
    hooks are the same in every world, and resolving them leaves the world as it is. Lazy ones can be resolved unless a
    factory for the tree format fails; at each resolving all of these run once, in order, and as long as each gives
    what it gave before so does the whole. -/
theorem laziness_of_declarations (bundle : Bundle κ) (treeFormat : String) :
    (bundle.plugin.hooks? treeFormat = none ↔
      (∀ hook, .hook treeFormat hook ∉ bundle.declarations) ∧
        ∀ factory, .lazyHooks treeFormat factory ∉ bundle.declarations) ∧
    (∀ deferred, bundle.plugin.hooks? treeFormat = some deferred →
      (deferred.isLazy = true ↔ ∃ factory, .lazyHooks treeFormat factory ∈ bundle.declarations) ∧
      (deferred.isLazy = false → ∃ hooks, ∀ world, deferred.resolve world = .ok hooks world) ∧
      (∀ before fault after, deferred.resolve before = .error fault after →
        ∃ factory reached, .lazyHooks treeFormat factory ∈ bundle.declarations ∧
          factory.run reached = .error fault after) ∧
      (∀ before hooks after, deferred.resolve before = .ok hooks after →
        after.runs = before.runs ++ (bundle.sources treeFormat).filterMap HookSource.id?) ∧
      ∀ before hooks middle again after, deferred.resolve before = .ok hooks middle →
        deferred.resolve middle = .ok again after →
        after.runs = before.runs ++ (bundle.sources treeFormat).filterMap HookSource.id? ++
          (bundle.sources treeFormat).filterMap HookSource.id? ∧
        ((∀ factory, .lazyHooks treeFormat factory ∈ bundle.declarations → Consistent factory) → again = hooks)) ∧
    ∀ (script : Script.PluginScript) (before : World Script.Journal),
      (ending (Action.ofState script.build before)).runs = before.runs ∧
        (ending (Action.ofState script.build before)).state.entries = before.state.entries := by
  have tagged := tagged_plugin bundle treeFormat
  refine ⟨tagged.none_iff.trans sources_eq_nil_iff, fun deferred held => ?_, fun script before => ?_⟩
  · have resolves := resolve_eq_supplyAll held
    have supplied {before after : World κ.State} {hooks : List κ.Hook}
        (resolved : deferred.resolve before = .ok hooks after) :
        Supplied (bundle.sources treeFormat) before hooks after := supplyAll_eq_ok_iff.mp (resolves ▸ resolved)
    refine ⟨?_, fun isEager => ?_, fun before fault after failed => ?_,
      fun _ _ _ resolved => runs_of_supplied (supplied resolved), ?_⟩
    · rw [tagged.isLazy_eq deferred held]
      exact any_isLazy_sources_iff
    · cases deferred with
      | eager hooks => exact ⟨hooks, fun _ => rfl⟩
      | lazy build => cases isEager
    · rw [resolves] at failed
      obtain ⟨earlier, factory, later, _, reached, split, _, failed⟩ := supplyAll_eq_error_iff.mp failed
      have member : .lazy factory ∈ bundle.sources treeFormat := split ▸ List.mem_append_cons_self
      exact ⟨factory, reached, mem_sources_lazy_iff.mp member, failed⟩
    · intro before hooks middle again after first second
      refine ⟨?_, fun consistent => ?_⟩
      · rw [runs_of_supplied (supplied second), runs_of_supplied (supplied first)]
      · exact hooks_eq_of_consistent (fun factory member => consistent factory (mem_sources_lazy_iff.mp member))
          (supplied first) (supplied second)
  · exact ⟨keeps_runs_ofState script.build before, keeps_ofState (keeps_entries_build script) before⟩

section

/-- Gives one hook at each run, and counts its runs. -/
def counting : Factory Nat (List String) := ⟨1, fun _ => do modify (· + 1); pure ["b"]⟩

/-- A factory stands between hooks of its own tree format and one of another. -/
def mixed : Bundle ⟨Nat, Unit, Unit, String⟩ := ⟨"mixed", [
  .hook "estree" "a", .hook "vue" "v", .lazyHooks "estree" counting, .parser "babel" (), .hook "estree" "c"]⟩

/-- Its lazy hooks are the same at both resolvings, each of which runs the factory; the others are eager. -/
theorem laziness_of_mixed :
    (∃ deferred, mixed.plugin.hooks? "vue" = some deferred ∧ deferred.isLazy = false) ∧
    ∃ deferred middle again after, mixed.plugin.hooks? "estree" = some deferred ∧ deferred.isLazy = true ∧
      deferred.resolve { state := 0 } = .ok ["a", "b", "c"] middle ∧ deferred.resolve middle = .ok again after ∧
      again = ["a", "b", "c"] ∧ after.runs = [1, 1] := by
  have consistent : Consistent counting := by
    intro _ _ _ _ _ _ first second
    cases first
    cases second
    rfl
  obtain ⟨_, held, _⟩ := laziness_of_declarations mixed "estree"
  obtain ⟨isLazy, _, _, _, twice⟩ := held _ rfl
  obtain ⟨runs, same⟩ := twice { state := 0 } ["a", "b", "c"] _ _ _ rfl rfl
  refine ⟨⟨_, rfl, rfl⟩, _, _, _, _, rfl, isLazy.mpr ⟨counting, by simp [mixed]⟩, rfl, rfl, same ?_, runs⟩
  intro factory declared
  have only : factory = counting := by simpa [mixed] using declared
  exact only ▸ consistent

end

end Declared

end Polyglot
