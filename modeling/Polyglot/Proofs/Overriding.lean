import Polyglot.Proofs.Stock

/-!
# Overridden declarations

However a registry is put together (`Assembled`), a name resolves to the last declaration of it in
the last plugin that has any (`Latest`), and to nothing else: what is overridden is not looked at, not
even when the factory that took its place fails (`LastWins`, `last_declaration_wins`).
-/

namespace Polyglot.Declared

open Outcome Registry

variable {κ : Kit} {α : Type}

/-- Registries that are put together from bundles: none at first, a whole list at once, or one more
    after those registered before. -/
inductive Assembled : List (Bundle κ) → Registry κ → Prop
  | empty : Assembled [] {}
  | collected {bundles : List (Bundle κ)} {registry : Registry κ} {before after : World κ.State}
      (collects : registerAll {} (bundles.map Bundle.plugin) before = .ok registry after) :
      Assembled bundles registry
  | registered {bundles : List (Bundle κ)} {bundle : Bundle κ} {registry more : Registry κ}
      {before after : World κ.State} (assembled : Assembled bundles registry)
      (registers : registry.register bundle.plugin before = .ok more after) :
      Assembled (bundles ++ [bundle]) more

/-- No declaration of the bundles is a source. -/
def Undeclared (source? : Declaration κ → Option (Source κ.State α)) (bundles : List (Bundle κ)) : Prop :=
  ∀ bundle ∈ bundles, ∀ declaration ∈ bundle.declarations, source? declaration = none

/-- The last source that bundles declare, with the name of its bundle: no declaration after it in the
    bundle is a source, and none in the bundles after that one. -/
inductive Latest (source? : Declaration κ → Option (Source κ.State α)) :
    List (Bundle κ) → String → Source κ.State α → Prop
  | intro {earlier later : List (Bundle κ)} {plugin : String} {overridden others : List (Declaration κ)}
      {declaration : Declaration κ} {source : Source κ.State α} (own : source? declaration = some source)
      (within : ∀ other ∈ others, source? other = none) (across : Undeclared source? later) :
      Latest source? (earlier ++ ⟨plugin, overridden ++ declaration :: others⟩ :: later) plugin source

/-- The step resolves a name to the last source that bundles declare for it, and runs the factory of this
    one alone. It fails as it is required to for the empty name, as unknown where nothing is declared, and
    otherwise just where that factory fails, with the same fault. -/
structure LastWins (source? : String → Declaration κ → Option (Source κ.State α)) (bundles : List (Bundle κ))
    (name : String) (required unknown : Fault) (event : String → Source κ.State α → α → Event)
    (resolve : Action κ.State α) : Prop where
  eq_ok_iff {before after : World κ.State} {value : α} :
    resolve before = .ok value after ↔
      name ≠ "" ∧ ∃ plugin source resolved, Latest (source? name) bundles plugin source ∧
        source.deferred.resolve before = .ok value resolved ∧
        resolved.runs = before.runs ++ source.id?.toList ∧ after = resolved.report [event plugin source value]
  eq_error_iff {before after : World κ.State} {fault : Fault} :
    resolve before = .error fault after ↔
      (name = "" ∧ fault = required ∧ after = before) ∨
      (name ≠ "" ∧ Undeclared (source? name) bundles ∧ fault = unknown ∧ after = before) ∨
      (name ≠ "" ∧ ∃ plugin factory, Latest (source? name) bundles plugin (.lazy factory) ∧
        factory.run before = .error fault after ∧ after.runs = before.runs ++ [factory.id])
  kinds : required.kind = .internal ∧ unknown.kind = .configuration
  quotes : ∃ head tail, unknown.message = head ++ ("\"" ++ name ++ "\"") ++ tail

/-! ## Assembled registries -/

theorem Assembled.plugins_eq {bundles : List (Bundle κ)} {registry : Registry κ}
    (assembled : Assembled bundles registry) : registry.plugins = bundles.map Bundle.plugin := by
  induction assembled with
  | empty => rfl
  | @collected bundles _ before _ collects =>
    obtain ⟨_, registers⟩ := registerAll_eq {} (bundles.map Bundle.plugin) before
    cases registers.symm.trans collects
    exact List.nil_append _
  | registered _ registers ih =>
    cases registers
    rw [plugins_add, ih, List.map_append, List.map_singleton]

/-! ## The last source -/

section
variable {source? : Declaration κ → Option (Source κ.State α)} {bundles : List (Bundle κ)}

theorem sourcesOf_append (first second : List (Bundle κ)) :
    sourcesOf source? (first ++ second) = sourcesOf source? first ++ sourcesOf source? second :=
  List.flatMap_append

theorem sourcesOf_eq_nil_iff : sourcesOf source? bundles = [] ↔ Undeclared source? bundles := by
  simp only [sourcesOf, List.flatMap_eq_nil_iff, List.map_eq_nil_iff, List.filterMap_eq_nil_iff, Undeclared]

/-- The last of the declarations of a bundle that are sources. -/
theorem getLast?_filterMap_iff {declarations : List (Declaration κ)} {source : Source κ.State α} :
    (declarations.filterMap source?).getLast? = some source ↔
      ∃ overridden declaration others, declarations = overridden ++ declaration :: others ∧
        source? declaration = some source ∧ ∀ other ∈ others, source? other = none := by
  rw [List.getLast?_eq_some_iff]
  constructor
  · rintro ⟨others, split⟩
    obtain ⟨first, second, rfl, _, last⟩ := List.filterMap_eq_append_iff.mp split
    obtain ⟨skipped, declaration, rest, rfl, _, own, none⟩ := List.filterMap_eq_cons_iff.mp last
    exact ⟨first ++ skipped, declaration, rest, (List.append_assoc ..).symm, own, List.filterMap_eq_nil_iff.mp none⟩
  · rintro ⟨overridden, declaration, others, rfl, own, within⟩
    refine ⟨overridden.filterMap source?, ?_⟩
    rw [List.filterMap_append, List.filterMap_cons_some own, List.filterMap_eq_nil_iff.mpr within]

theorem Latest.cons {plugin : String} {source : Source κ.State α} (latest : Latest source? bundles plugin source)
    (bundle : Bundle κ) : Latest source? (bundle :: bundles) plugin source := by
  obtain ⟨own, within, across⟩ := latest
  rw [← List.cons_append]
  exact .intro own within across

theorem getLast?_sourcesOf_iff {plugin : String} {source : Source κ.State α} :
    (sourcesOf source? bundles).getLast? = some (plugin, source) ↔ Latest source? bundles plugin source := by
  constructor
  · intro last
    induction bundles with
    | nil => cases last
    | cons bundle rest ih =>
      rw [sourcesOf_cons, List.getLast?_append] at last
      cases others : (sourcesOf source? rest).getLast? with
      | some winner =>
        rw [others, Option.some_or] at last
        exact (ih (others.trans last)).cons bundle
      | none =>
        -- Nothing is declared after this bundle, so the source is its own.
        rw [others, Option.none_or, List.getLast?_map] at last
        obtain ⟨taken, among, same⟩ := Option.map_eq_some_iff.mp last
        obtain ⟨rfl, rfl⟩ := Prod.mk.inj same
        obtain ⟨overridden, declaration, later, split, own, within⟩ := getLast?_filterMap_iff.mp among
        have across := sourcesOf_eq_nil_iff.mp (List.getLast?_eq_none_iff.mp others)
        obtain ⟨name, declarations⟩ := bundle
        subst split
        have here : Latest source? ([] ++ ⟨name, overridden ++ declaration :: later⟩ :: rest) name taken :=
          .intro own within across
        exact here
  · intro latest
    cases latest with
    | @intro earlier later plugin overridden others declaration source own within across =>
      have last : ((overridden ++ declaration :: others).filterMap source?).getLast? = some source :=
        getLast?_filterMap_iff.mpr ⟨_, _, _, rfl, own, within⟩
      rw [sourcesOf_append, sourcesOf_cons, sourcesOf_eq_nil_iff.mpr across, List.append_nil, List.getLast?_append,
        List.getLast?_map, last]
      rfl

end

/-! ## Resolving -/

section
variable {source? : String → Declaration κ → Option (Source κ.State α)} {bundles : List (Bundle κ)} {name : String}

theorem winner?_eq_some_iff {plugin : String} {source : Source κ.State α} :
    winner? source? name bundles = some (plugin, source) ↔
      name ≠ "" ∧ Latest (source? name) bundles plugin source := by
  unfold winner?
  split
  · next unnamed => simp [unnamed]
  · next named => rw [getLast?_sourcesOf_iff, and_iff_right named]

theorem winner?_eq_none_iff :
    winner? source? name bundles = none ↔ name = "" ∨ Undeclared (source? name) bundles := by
  unfold winner?
  split
  · next unnamed => simp [unnamed]
  · next named => rw [List.getLast?_eq_none_iff, sourcesOf_eq_nil_iff, or_iff_right named]

theorem runs_of_resolve_ok {σ β : Type} {source : Source σ β} {before after : World σ} {value : β}
    (resolved : source.deferred.resolve before = .ok value after) :
    after.runs = before.runs ++ source.id?.toList := by
  cases source with
  | eager other =>
    cases resolved
    exact (List.append_nil _).symm
  | lazy factory => exact runs_of_run_ok resolved

/-- Taking a capability from the winner is to let the last declaration win. -/
theorem lastWins_takeFrom {required unknown : Fault} (event : String → Source κ.State α → α → Event)
    (kinds : required.kind = .internal ∧ unknown.kind = .configuration)
    (quotes : ∃ head tail, unknown.message = head ++ ("\"" ++ name ++ "\"") ++ tail) :
    LastWins source? bundles name required unknown event
      (takeFrom (winner? source? name bundles) (if name = "" then required else unknown) event) where
  kinds := kinds
  quotes := quotes
  eq_ok_iff {before after value} := by
    cases found : winner? source? name bundles with
    | none =>
      constructor
      · intro never
        cases never
      · rintro ⟨named, plugin, source, _, latest, _⟩
        cases found.symm.trans (winner?_eq_some_iff.mpr ⟨named, latest⟩)
    | some winner =>
      obtain ⟨plugin, source⟩ := winner
      obtain ⟨named, latest⟩ := winner?_eq_some_iff.mp found
      constructor
      · intro taken
        obtain ⟨value, resolved, succeeded, reports⟩ := bind_eq_ok_iff.mp taken
        cases reports
        exact ⟨named, plugin, source, resolved, latest, succeeded, runs_of_resolve_ok succeeded, rfl⟩
      · rintro ⟨_, other, also, resolved, again, succeeded, _, rfl⟩
        cases found.symm.trans (winner?_eq_some_iff.mpr ⟨named, again⟩)
        exact bind_eq_of_ok succeeded _
  eq_error_iff {before after fault} := by
    cases found : winner? source? name bundles with
    | none =>
      have refused : takeFrom none (if name = "" then required else unknown) event before =
          .error (if name = "" then required else unknown) before := rfl
      rw [refused]
      constructor
      · intro same
        cases same
        by_cases unnamed : name = ""
        · exact .inl ⟨unnamed, if_pos unnamed, rfl⟩
        · have undeclared := (winner?_eq_none_iff.mp found).resolve_left unnamed
          exact .inr (.inl ⟨unnamed, undeclared, if_neg unnamed, rfl⟩)
      · rintro (⟨unnamed, rfl, rfl⟩ | ⟨named, _, rfl, rfl⟩ | ⟨named, plugin, factory, latest, _⟩)
        · rw [if_pos unnamed]
        · rw [if_neg named]
        · cases found.symm.trans (winner?_eq_some_iff.mpr ⟨named, latest⟩)
    | some winner =>
      obtain ⟨plugin, source⟩ := winner
      obtain ⟨named, latest⟩ := winner?_eq_some_iff.mp found
      have undeclared : ¬ Undeclared (source? name) bundles := by
        intro none
        cases found.symm.trans (winner?_eq_none_iff.mpr (.inr none))
      constructor
      · intro failed
        rcases bind_eq_error_iff.mp failed with failed | ⟨_, _, _, never⟩
        · cases source with
          | eager value => cases failed
          | lazy factory => exact .inr (.inr ⟨named, plugin, factory, latest, failed, runs_of_run_error failed⟩)
        · cases never
      · rintro (⟨unnamed, _⟩ | ⟨_, none, _⟩ | ⟨_, other, factory, again, failed, _⟩)
        · exact absurd unnamed named
        · exact absurd none undeclared
        · cases found.symm.trans (winner?_eq_some_iff.mpr ⟨named, again⟩)
          exact bind_eq_of_error failed _

end

/-- In a registry that is put together from bundles, the parser of a name and the printer of a tree format
    are what the last declaration for them gives, each by declarations of its own kind alone. What is
    declared before it is not resolved, in the same bundle or an earlier one, and the fault of a factory that
    fails is that of resolving. A plugin that is found for a name has a parser or a printer for it, so it
    is never lost. -/
theorem last_declaration_wins {bundles : List (Bundle κ)} {registry : Registry κ}
    (assembled : Assembled bundles registry) (profile : Profile κ) (name treeFormat : String) :
    LastWins parserSource? bundles name parserNameRequired (unknownParser name)
      (fun plugin source parser => .resolvedParser name plugin (profile.treeFormat parser) source.deferred.isLazy)
      (registry.resolveParser profile name) ∧
    LastWins printerSource? bundles treeFormat treeFormatRequired (unknownTreeFormat treeFormat)
      (fun plugin source _ => .resolvedPrinter treeFormat plugin source.deferred.isLazy)
      (registry.resolvePrinter treeFormat) ∧
    (∀ plugin, registry.findParser name = .ok plugin → plugin.parser? name ≠ none) ∧
    ∀ plugin, registry.findPrinter treeFormat = .ok plugin → plugin.printer? treeFormat ≠ none := by
  have plugins := assembled.plugins_eq
  have quoted (head text tail : String) :
      head ++ "\"" ++ text ++ ("\"" ++ tail) = head ++ ("\"" ++ text ++ "\"") ++ tail := by
    simp only [String.append_assoc]
  refine ⟨?_, ?_, ?_, ?_⟩
  · rw [resolveParser_eq plugins]
    exact lastWins_takeFrom _ ⟨rfl, rfl⟩ ⟨_, _, quoted "Couldn't resolve parser " name "."⟩
  · rw [resolvePrinter_eq plugins]
    exact lastWins_takeFrom _ ⟨rfl, rfl⟩ ⟨_, _, quoted "Couldn't find plugin for tree format " treeFormat "."⟩
  · intro plugin found
    exact Option.isSome_iff_ne_none.mp (hasParser_of_findParser found)
  · intro plugin found
    exact Option.isSome_iff_ne_none.mp (hasPrinter_of_findPrinter found)

section

/-- Parsers and printers are names; that of a parser is its tree format. -/
def namesOnly : Profile ⟨Unit, String, String, Unit⟩ := ⟨id, fun _ => "", fun _ => .any, fun _ _ => false⟩

def grammars : Bundle ⟨Unit, String, String, Unit⟩ :=
  ⟨"grammars", [.parser "babel" ("estree" : String), .printer "babel" ("plain" : String)]⟩

def noGrammar : Factory Unit String := ⟨2, fun _ => throw (.plugin "no grammar.")⟩

/-- A bundle that declares a parser twice; the factory that comes last fails. -/
def broken : Bundle ⟨Unit, String, String, Unit⟩ :=
  ⟨"broken", [.lazyParser "babel" ⟨1, fun _ => pure "flow"⟩, .lazyParser "babel" noGrammar]⟩

def printers : Bundle ⟨Unit, String, String, Unit⟩ := ⟨"printers", [.printer "estree" ("pretty" : String)]⟩

/-- The parser is had from the factory that fails and from no other, although two sources for it are declared
    before; the printer of a tree format of the same name is found further back. -/
theorem last_declaration_of_broken : ∃ registry failed printed,
    Assembled ([grammars] ++ [broken] ++ [printers]) registry ∧
      registry.resolveParser namesOnly "babel" { state := () } = .error (.plugin "no grammar.") failed ∧
      failed.runs = [2] ∧
      registry.resolvePrinter "babel" { state := () } = .ok "plain" printed ∧ printed.runs = [] := by
  have collects : registerAll {} ([grammars].map Bundle.plugin) { state := () } = .ok _ _ := rfl
  have second : Registry.register ⟨[grammars.plugin]⟩ broken.plugin { state := () } = .ok _ _ := rfl
  have third : Registry.register ⟨[grammars.plugin, broken.plugin]⟩ printers.plugin { state := () } = .ok _ _ := rfl
  have assembled : Assembled ([grammars] ++ [broken] ++ [printers]) _ :=
    .registered (.registered (.collected collects) second) third
  obtain ⟨parsers, formats, _⟩ := last_declaration_wins assembled namesOnly "babel" "babel"
  have parser : Latest (parserSource? "babel") ([grammars] ++ [broken] ++ [printers]) "broken" (.lazy noGrammar) :=
    getLast?_sourcesOf_iff.mp rfl
  have printer : Latest (printerSource? "babel") ([grammars] ++ [broken] ++ [printers]) "grammars" (.eager "plain") :=
    getLast?_sourcesOf_iff.mp rfl
  have nonempty : "babel" ≠ "" := by decide
  have ran : noGrammar.run { state := () } = .error (.plugin "no grammar.") { state := (), runs := [2] } := rfl
  have fails := parsers.eq_error_iff.mpr (.inr (.inr ⟨nonempty, _, _, parser, ran, rfl⟩))
  have had : (Source.eager "plain" : Source Unit String).deferred.resolve { state := () } =
      .ok "plain" { state := () } := rfl
  have succeeds := formats.eq_ok_iff.mpr ⟨nonempty, _, _, _, printer, had, rfl, rfl⟩
  exact ⟨_, _, _, assembled, fails, rfl, succeeds, rfl⟩

end

end Polyglot.Declared
