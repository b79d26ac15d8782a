import Polyglot.Proofs.Outcome
import Polyglot.Registry.Resolve

/-!
# Declared hooks

The hooks of a tree format come from the declarations for it, plugin by plugin and each
plugin's in order: a declared hook is one hook, a declared factory the hooks that it
builds (`hookSources`, `Supplied`). However declarations are merged inside a plugin,
resolving the hooks of a registry takes these sources one after another, each once, and
ends at the first factory that fails (`resolveHooks_of_declarations`).
-/

namespace Polyglot.Declared

open Outcome Registry

variable {κ : Kit}

/-- A name and the declarations that a plugin is put together from. -/
structure Bundle (κ : Kit) where
  name : String
  declarations : List (Declaration κ)

def Bundle.plugin (bundle : Bundle κ) : Plugin κ := .ofDeclarations bundle.name bundle.declarations

/-- What hooks come from: a hook itself, or a factory of hooks. -/
inductive HookSource (κ : Kit)
  | eager (hook : κ.Hook)
  | lazy (factory : Factory κ.State (List κ.Hook))

namespace HookSource

/-- The hooks of a source. -/
def supply : HookSource κ → Action κ.State (List κ.Hook)
  | .eager hook => pure [hook]
  | .lazy factory => factory.run

/-- What a source is on record as when its hooks are asked for. -/
def id? : HookSource κ → Option Nat
  | .eager _ => none
  | .lazy factory => some factory.id

end HookSource

/-- The source that a declaration is for the hooks of a tree format, if it is one. -/
def sourceOf? (treeFormat : String) : Declaration κ → Option (HookSource κ)
  | .hook other hook => if other = treeFormat then some (.eager hook) else none
  | .lazyHooks other factory => if other = treeFormat then some (.lazy factory) else none
  | _ => none

/-- The sources of the hooks of a tree format, by registration and then by declaration. -/
def hookSources (treeFormat : String) (bundles : List (Bundle κ)) : List (HookSource κ) :=
  bundles.flatMap fun bundle => bundle.declarations.filterMap (sourceOf? treeFormat)

/-- The hooks that sources give one after another, none of them failing. -/
inductive Supplied : List (HookSource κ) → World κ.State → List κ.Hook → World κ.State → Prop
  | done {world : World κ.State} : Supplied [] world [] world
  | eager {hook : κ.Hook} {rest : List (HookSource κ)} {before after : World κ.State} {hooks : List κ.Hook}
      (others : Supplied rest before hooks after) : Supplied (.eager hook :: rest) before (hook :: hooks) after
  | lazy {factory : Factory κ.State (List κ.Hook)} {rest : List (HookSource κ)}
      {before middle after : World κ.State} {built hooks : List κ.Hook}
      (succeeded : factory.run before = .ok built middle) (others : Supplied rest middle hooks after) :
      Supplied (.lazy factory :: rest) before (built ++ hooks) after

/-- The hooks of sources, one source after another. -/
def supplyAll (sources : List (HookSource κ)) : Action κ.State (List κ.Hook) := do
  let lists ← sources.mapM HookSource.supply
  pure lists.flatten

theorem supplyAll_nil : supplyAll ([] : List (HookSource κ)) = pure [] := rfl

theorem supplyAll_cons (source : HookSource κ) (rest : List (HookSource κ)) :
    supplyAll (source :: rest) = (do
      let first ← source.supply
      let others ← supplyAll rest
      pure (first ++ others)) := by
  simp only [supplyAll, List.mapM_cons, bind_assoc, pure_bind, List.flatten_cons]

theorem supplyAll_append (first second : List (HookSource κ)) :
    supplyAll (first ++ second) = (do
      let hooks ← supplyAll first
      let others ← supplyAll second
      pure (hooks ++ others)) := by
  simp only [supplyAll, List.mapM_append, bind_assoc, pure_bind, List.flatten_append]

/-! ## What the sources are of -/

/-- One more declaration adds its source, if it is one, after those that a plugin has. -/
theorem ownHooks_declare (treeFormat : String) (plugin : Plugin κ) (declaration : Declaration κ) :
    ownHooks treeFormat (plugin.declare declaration) = (do
      let own ← ownHooks treeFormat plugin
      let more ← supplyAll (sourceOf? treeFormat declaration).toList
      pure (own ++ more)) := by
  -- A hook and a factory are added alike; any other declaration leaves the hooks alone.
  have added (other : String) (tail : Deferred κ.State (List κ.Hook)) (source : HookSource κ)
      (same : tail.resolve = source.supply) :
      ownHooks treeFormat (plugin.addHooks other tail) = (do
        let own ← ownHooks treeFormat plugin
        let more ← supplyAll (if other = treeFormat then some source else none).toList
        pure (own ++ more)) := by
    by_cases this : other = treeFormat
    · subst this
      simp only [ownHooks, Plugin.hooks?_addHooks_self, if_true, Option.toList_some, supplyAll_cons,
        supplyAll_nil, pure_bind, List.append_nil, bind_pure]
      cases plugin.hooks? other with
      | none => simp only [Option.elim_none, same, pure_bind, List.nil_append, bind_pure]
      | some head => simp only [Option.elim_some, Deferred.resolve_append, same]
    · simp only [ownHooks, Plugin.hooks?_addHooks_of_ne plugin (Ne.symm this), if_neg this, Option.toList_none,
        supplyAll_nil, pure_bind, List.append_nil, bind_pure]
  have kept : ownHooks treeFormat plugin = (do
      let own ← ownHooks treeFormat plugin
      let more ← supplyAll []
      pure (own ++ more)) := by
    simp only [supplyAll_nil, pure_bind, List.append_nil, bind_pure]
  cases declaration with
  | hook other hook => exact added other (.eager [hook]) (.eager hook) rfl
  | lazyHooks other factory => exact added other (.lazy factory.run) (.lazy factory) rfl
  | parser name parser => exact kept
  | lazyParser name factory => exact kept
  | printer other printer => exact kept
  | lazyPrinter other factory => exact kept

theorem ownHooks_foldl_declare (treeFormat : String) (declarations : List (Declaration κ)) (plugin : Plugin κ) :
    ownHooks treeFormat (declarations.foldl Plugin.declare plugin) = (do
      let own ← ownHooks treeFormat plugin
      let more ← supplyAll (declarations.filterMap (sourceOf? treeFormat))
      pure (own ++ more)) := by
  induction declarations generalizing plugin with
  | nil => simp only [List.foldl_nil, List.filterMap_nil, supplyAll_nil, pure_bind, List.append_nil, bind_pure]
  | cons declaration rest ih =>
    have split : (declaration :: rest).filterMap (sourceOf? treeFormat) =
        (sourceOf? treeFormat declaration).toList ++ rest.filterMap (sourceOf? treeFormat) := by
      cases found : sourceOf? treeFormat declaration <;> simp [found]
    rw [List.foldl_cons, ih, ownHooks_declare, split, supplyAll_append]
    simp only [bind_assoc, pure_bind, List.append_assoc]

theorem ownHooks_plugin (treeFormat : String) (bundle : Bundle κ) :
    ownHooks treeFormat bundle.plugin = supplyAll (bundle.declarations.filterMap (sourceOf? treeFormat)) := by
  have start : ownHooks treeFormat ({ name := bundle.name } : Plugin κ) = pure [] := rfl
  rw [Bundle.plugin, Plugin.ofDeclarations, ownHooks_foldl_declare, start]
  simp only [pure_bind, List.nil_append, bind_pure]

theorem mapM_ownHooks (treeFormat : String) (bundles : List (Bundle κ)) :
    (do let lists ← (bundles.map Bundle.plugin).mapM (ownHooks treeFormat); pure lists.flatten) =
      supplyAll (hookSources treeFormat bundles) := by
  induction bundles with
  | nil => rfl
  | cons bundle rest ih =>
    rw [hookSources, List.flatMap_cons, supplyAll_append, ← hookSources, ← ih, ← ownHooks_plugin]
    simp only [List.map_cons, List.mapM_cons, bind_assoc, pure_bind, List.flatten_cons]

/-- The hooks of a registry of bundles are those of the sources, taken in order. -/
theorem resolveHooks_eq {treeFormat : String} (named : treeFormat ≠ "") {registry : Registry κ}
    {bundles : List (Bundle κ)} (plugins : registry.plugins = bundles.map Bundle.plugin) :
    registry.resolveHooks treeFormat = (do
      let hooks ← supplyAll (hookSources treeFormat bundles)
      Action.report (.resolvedHooks treeFormat hooks.length)
      pure hooks) := by
  simp only [resolveHooks, if_neg named, plugins, ← mapM_ownHooks, bind_assoc, pure_bind]

/-! ## Taking sources in order -/

theorem supplied_cons_iff {source : HookSource κ} {rest : List (HookSource κ)} {before after : World κ.State}
    {hooks : List κ.Hook} :
    Supplied (source :: rest) before hooks after ↔
      ∃ first middle others, source.supply before = .ok first middle ∧ Supplied rest middle others after ∧
        hooks = first ++ others := by
  constructor
  · intro supplied
    cases supplied with
    | eager others => exact ⟨_, _, _, rfl, others, rfl⟩
    | lazy succeeded others => exact ⟨_, _, _, succeeded, others, rfl⟩
  · rintro ⟨first, middle, others, succeeded, later, rfl⟩
    cases source with
    | eager hook =>
      obtain ⟨rfl, rfl⟩ := pure_eq_ok_iff.mp succeeded
      exact .eager later
    | lazy factory => exact .lazy succeeded later

theorem supplyAll_eq_ok_iff {sources : List (HookSource κ)} {before after : World κ.State} {hooks : List κ.Hook} :
    supplyAll sources before = .ok hooks after ↔ Supplied sources before hooks after := by
  induction sources generalizing before hooks with
  | nil =>
    rw [supplyAll_nil, pure_eq_ok_iff]
    constructor
    · rintro ⟨rfl, rfl⟩; exact .done
    · intro supplied; cases supplied; exact ⟨rfl, rfl⟩
  | cons source rest ih =>
    rw [supplyAll_cons, supplied_cons_iff]
    simp only [bind_eq_ok_iff, pure_eq_ok_iff]
    constructor
    · rintro ⟨first, middle, succeeded, others, _, later, rfl, rfl⟩
      exact ⟨first, middle, others, succeeded, ih.mp later, rfl⟩
    · rintro ⟨first, middle, others, succeeded, later, rfl⟩
      exact ⟨first, middle, succeeded, others, after, ih.mpr later, rfl, rfl⟩

/-- Sources fail where the first factory among them does. -/
theorem supplyAll_eq_error_iff {sources : List (HookSource κ)} {before after : World κ.State} {fault : Fault} :
    supplyAll sources before = .error fault after ↔
      ∃ earlier factory later hooks reached, sources = earlier ++ .lazy factory :: later ∧
        Supplied earlier before hooks reached ∧ factory.run reached = .error fault after := by
  induction sources generalizing before with
  | nil => simp [supplyAll_nil, pure, EStateM.pure]
  | cons source rest ih =>
    rw [supplyAll_cons, bind_eq_error_iff]
    constructor
    · rintro (failed | ⟨first, middle, succeeded, failed⟩)
      · cases source with
        | eager hook => cases failed
        | lazy factory => exact ⟨[], factory, rest, [], before, rfl, .done, failed⟩
      · rcases bind_eq_error_iff.mp failed with failed | ⟨_, _, _, never⟩
        · obtain ⟨earlier, factory, later, hooks, reached, rfl, supplied, failed⟩ := ih.mp failed
          exact ⟨source :: earlier, factory, later, first ++ hooks, reached, rfl,
            supplied_cons_iff.mpr ⟨first, middle, hooks, succeeded, supplied, rfl⟩, failed⟩
        · cases never
    · rintro ⟨earlier, factory, later, hooks, reached, split, supplied, failed⟩
      cases earlier with
      | nil =>
        obtain ⟨rfl, rfl⟩ := List.cons.inj split
        cases supplied
        exact .inl failed
      | cons head more =>
        obtain ⟨rfl, rfl⟩ := List.cons.inj split
        obtain ⟨first, middle, others, succeeded, supplied, _⟩ := supplied_cons_iff.mp supplied
        have restFailed := ih.mpr ⟨more, factory, later, others, reached, rfl, supplied, failed⟩
        exact .inr ⟨first, middle, succeeded, bind_eq_of_error restFailed _⟩

theorem resolveHooks_eq_ok_iff {treeFormat : String} {registry : Registry κ} {bundles : List (Bundle κ)}
    (plugins : registry.plugins = bundles.map Bundle.plugin) {before after : World κ.State} {hooks : List κ.Hook} :
    registry.resolveHooks treeFormat before = .ok hooks after ↔
      treeFormat ≠ "" ∧ ∃ supplied, Supplied (hookSources treeFormat bundles) before hooks supplied ∧
        after = supplied.report [.resolvedHooks treeFormat hooks.length] := by
  by_cases unnamed : treeFormat = ""
  · have refused : registry.resolveHooks treeFormat before = .error treeFormatRequired before := by
      subst unnamed; rfl
    rw [refused]
    simp [unnamed]
  · rw [resolveHooks_eq unnamed plugins]
    simp only [bind_eq_ok_iff, supplyAll_eq_ok_iff, pure_eq_ok_iff]
    constructor
    · rintro ⟨_, supplied, gives, _, _, reported, rfl, rfl⟩
      cases reported
      exact ⟨unnamed, supplied, gives, rfl⟩
    · rintro ⟨_, supplied, gives, rfl⟩
      exact ⟨hooks, supplied, gives, _, _, rfl, rfl, rfl⟩

theorem resolveHooks_eq_error_iff {treeFormat : String} (named : treeFormat ≠ "") {registry : Registry κ}
    {bundles : List (Bundle κ)} (plugins : registry.plugins = bundles.map Bundle.plugin)
    {before after : World κ.State} {fault : Fault} :
    registry.resolveHooks treeFormat before = .error fault after ↔
      ∃ earlier factory later hooks reached, hookSources treeFormat bundles = earlier ++ .lazy factory :: later ∧
        Supplied earlier before hooks reached ∧ factory.run reached = .error fault after := by
  rw [resolveHooks_eq named plugins, bind_eq_error_iff, supplyAll_eq_error_iff]
  constructor
  · rintro (failed | ⟨_, _, _, never⟩)
    · exact failed
    · cases never
  · exact .inl

/-! ## What is on record of it -/

theorem runs_of_run_ok {σ α : Type} {factory : Factory σ α} {before after : World σ} {value : α}
    (succeeded : factory.run before = .ok value after) : after.runs = before.runs ++ [factory.id] := by
  unfold Factory.run Action.ofState at succeeded
  split at succeeded
  · cases succeeded; rfl
  · cases succeeded

theorem runs_of_run_error {σ α : Type} {factory : Factory σ α} {before after : World σ} {fault : Fault}
    (failed : factory.run before = .error fault after) : after.runs = before.runs ++ [factory.id] := by
  unfold Factory.run Action.ofState at failed
  split at failed
  · cases failed
  · cases failed; rfl

theorem runs_of_supplied {sources : List (HookSource κ)} {before after : World κ.State} {hooks : List κ.Hook}
    (supplied : Supplied sources before hooks after) :
    after.runs = before.runs ++ sources.filterMap HookSource.id? := by
  induction supplied with
  | done => simp
  | eager _ ih => rw [ih, List.filterMap_cons_none rfl]
  | @lazy factory rest _ _ _ _ _ succeeded _ ih =>
    have recorded : (HookSource.lazy factory :: rest).filterMap HookSource.id? =
        factory.id :: rest.filterMap HookSource.id? := rfl
    rw [ih, runs_of_run_ok succeeded, recorded, ← List.append_cons]

/-- Plugins that are registered stand after those registered before, in their order. -/
theorem registerAll_eq (registry : Registry κ) (plugins : List (Plugin κ)) (before : World κ.State) :
    ∃ events, registry.registerAll plugins before = .ok ⟨registry.plugins ++ plugins⟩ (before.report events) := by
  induction plugins generalizing registry before with
  | nil => exact ⟨[], by simp [registerAll, World.report, pure, EStateM.pure]⟩
  | cons plugin rest ih =>
    let first : Event := .registering plugin.name registry.plugins.length
    obtain ⟨events, others⟩ := ih (registry.add plugin) (before.report [first])
    refine ⟨first :: events, ?_⟩
    have step : registry.register plugin before = .ok (registry.add plugin) (before.report [first]) := rfl
    rw [registerAll, List.foldlM_cons, bind_eq_of_ok step, ← registerAll, others, World.report_report]
    simp

/-- The hooks of a tree format that a registry resolves are those of the sources that the
    bundles declare for it, by registration and then by declaration, each once; and of all
    factories just those among these sources run. Where one of them fails, the resolving
    fails with its fault, after the factories before it and itself ran and none after it. -/
theorem resolveHooks_of_declarations (bundles : List (Bundle κ)) {treeFormat : String} (named : treeFormat ≠ "")
    (start before : World κ.State) :
    ∃ registry started, registerAll {} (bundles.map Bundle.plugin) start = .ok registry started ∧
      (∀ hooks after, registry.resolveHooks treeFormat before = .ok hooks after ↔
        ∃ supplied, Supplied (hookSources treeFormat bundles) before hooks supplied ∧
          supplied.runs = before.runs ++ (hookSources treeFormat bundles).filterMap HookSource.id? ∧
          after = supplied.report [.resolvedHooks treeFormat hooks.length]) ∧
      (∀ fault after, registry.resolveHooks treeFormat before = .error fault after ↔
        ∃ earlier factory later hooks reached,
          hookSources treeFormat bundles = earlier ++ .lazy factory :: later ∧
          Supplied earlier before hooks reached ∧ factory.run reached = .error fault after ∧
          after.runs = before.runs ++ earlier.filterMap HookSource.id? ++ [factory.id]) := by
  obtain ⟨events, registered⟩ := registerAll_eq {} (bundles.map Bundle.plugin) start
  refine ⟨_, _, registered, ?_, ?_⟩
  · intro hooks after
    rw [resolveHooks_eq_ok_iff (List.nil_append _)]
    constructor
    · rintro ⟨_, supplied, gives, rfl⟩
      exact ⟨supplied, gives, runs_of_supplied gives, rfl⟩
    · rintro ⟨supplied, gives, _, rfl⟩
      exact ⟨named, supplied, gives, rfl⟩
  · intro fault after
    rw [resolveHooks_eq_error_iff named (List.nil_append _)]
    constructor
    · rintro ⟨earlier, factory, later, hooks, reached, split, gives, failed⟩
      refine ⟨earlier, factory, later, hooks, reached, split, gives, failed, ?_⟩
      rw [runs_of_run_error failed, runs_of_supplied gives]
    · rintro ⟨earlier, factory, later, hooks, reached, split, gives, failed, _⟩
      exact ⟨earlier, factory, later, hooks, reached, split, gives, failed⟩

/-- Two bundles that declare hooks for two tree formats by turns, some of them lazily. -/
def interleaved : List (Bundle ⟨Unit, Unit, Unit, String⟩) := [
  ⟨"first", [.hook "estree" "a", .lazyHooks "mdast" ⟨1, fun _ => pure ["x"]⟩,
    .lazyHooks "estree" ⟨2, fun _ => pure ["b", "c"]⟩, .parser "babel" (), .hook "estree" "d"]⟩,
  ⟨"second", [.hook "mdast" "y", .hook "estree" "e", .lazyHooks "estree" ⟨3, fun _ => pure ["f"]⟩]⟩]

theorem resolveHooks_of_interleaved :
    "estree" ≠ "" ∧ ∃ registry started after,
      registerAll {} (interleaved.map Bundle.plugin) { state := () } = .ok registry started ∧
      registry.resolveHooks "estree" { state := () } = .ok ["a", "b", "c", "d", "e", "f"] after ∧
      after.runs = [2, 3] := by
  have named : "estree" ≠ "" := by decide
  obtain ⟨registry, started, registered, succeeds, _⟩ :=
    resolveHooks_of_declarations interleaved named { state := () } { state := () }
  have supplied : Supplied (hookSources "estree" interleaved) { state := () } ["a", "b", "c", "d", "e", "f"]
      { state := (), runs := [2, 3] } := supplyAll_eq_ok_iff.mp rfl
  exact ⟨named, registry, started, _, registered, (succeeds _ _).mpr ⟨_, supplied, rfl, rfl⟩, rfl⟩

end Polyglot.Declared
