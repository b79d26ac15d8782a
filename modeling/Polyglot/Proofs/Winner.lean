import Polyglot.Proofs.Declared

/-!
# Declared parsers and printers

Parsers and printers come from the last declaration for them: the last one of the last plugin
that has any (`winner?`). Resolving takes this one and looks at no other (`resolveParser_eq`,
`resolvePrinter_eq`).
-/

namespace Polyglot.Declared

open Outcome Registry

variable {κ : Kit} {σ α : Type}

/-- What a capability comes from: the capability itself, or a factory that builds it. -/
inductive Source (σ α : Type)
  | eager (value : α)
  | lazy (factory : Factory σ α)

namespace Source

def deferred : Source σ α → Deferred σ α
  | .eager value => .eager value
  | .lazy factory => .lazy factory.run

/-- What a source is on record as when its capability is asked for. -/
def id? : Source σ α → Option Nat
  | .eager _ => none
  | .lazy factory => some factory.id

end Source

/-- The source that a declaration is for a parser, if it is one. -/
def parserSource? (name : String) : Declaration κ → Option (Source κ.State κ.Parser)
  | .parser other parser => if other = name then some (.eager parser) else none
  | .lazyParser other factory => if other = name then some (.lazy factory) else none
  | _ => none

/-- The source that a declaration is for the printer of a tree format, if it is one. -/
def printerSource? (treeFormat : String) : Declaration κ → Option (Source κ.State κ.Printer)
  | .printer other printer => if other = treeFormat then some (.eager printer) else none
  | .lazyPrinter other factory => if other = treeFormat then some (.lazy factory) else none
  | _ => none

/-- The sources among the declarations of bundles, each with the name of its bundle. -/
def sourcesOf (source? : Declaration κ → Option (Source κ.State α)) (bundles : List (Bundle κ)) :
    List (String × Source κ.State α) :=
  bundles.flatMap fun bundle => (bundle.declarations.filterMap source?).map (Prod.mk bundle.name)

theorem sourcesOf_cons (source? : Declaration κ → Option (Source κ.State α)) (bundle : Bundle κ)
    (rest : List (Bundle κ)) :
    sourcesOf source? (bundle :: rest) =
      (bundle.declarations.filterMap source?).map (Prod.mk bundle.name) ++ sourcesOf source? rest := by
  rw [sourcesOf, List.flatMap_cons, ← sourcesOf]

/-- The source that a capability is taken from: the last one that is declared for it. Nothing is
    had for the empty name, whatever is declared. -/
def winner? (source? : String → Declaration κ → Option (Source κ.State α)) (name : String)
    (bundles : List (Bundle κ)) : Option (String × Source κ.State α) :=
  if name = "" then none else (sourcesOf (source? name) bundles).getLast?

/-- Resolves the source that a capability is taken from and reports it; without one it fails. -/
def takeFrom (winner : Option (String × Source σ α)) (missing : Fault) (event : String → Source σ α → α → Event) :
    Action σ α :=
  match winner with
  | none => throw missing
  | some (plugin, source) => do
    let value ← source.deferred.resolve
    Action.report (event plugin source value)
    pure value

/-! ## In a plugin -/

/-- What plugins have for a name is what was declared for it last. -/
structure LastDeclared (lookup : Plugin κ → Option (Deferred κ.State α))
    (source? : Declaration κ → Option (Source κ.State α)) : Prop where
  bare (name : String) : lookup { name } = none
  declare (plugin : Plugin κ) (declaration : Declaration κ) :
    lookup (plugin.declare declaration) = ((source? declaration).map Source.deferred).or (lookup plugin)

theorem parser_lastDeclared (name : String) :
    LastDeclared (fun plugin : Plugin κ => plugin.parser? name) (parserSource? name) where
  bare _ := rfl
  declare plugin declaration := by
    have set (other : String) (source : Source κ.State κ.Parser) :
        (plugin.setParser other source.deferred).parser? name =
          ((if other = name then some source else none).map Source.deferred).or (plugin.parser? name) := by
      rw [Plugin.parser?_setParser]
      by_cases same : other = name
      · simp [same]
      · simp [same, Ne.symm same]
    cases declaration with
    | parser other parser => exact set other (.eager parser)
    | lazyParser other factory => exact set other (.lazy factory)
    | printer other printer => rfl
    | lazyPrinter other factory => rfl
    | hook other hook => rfl
    | lazyHooks other factory => rfl

theorem printer_lastDeclared (treeFormat : String) :
    LastDeclared (fun plugin : Plugin κ => plugin.printer? treeFormat) (printerSource? treeFormat) where
  bare _ := rfl
  declare plugin declaration := by
    have set (other : String) (source : Source κ.State κ.Printer) :
        (plugin.setPrinter other source.deferred).printer? treeFormat =
          ((if other = treeFormat then some source else none).map Source.deferred).or (plugin.printer? treeFormat) := by
      rw [Plugin.printer?_setPrinter]
      by_cases same : other = treeFormat
      · simp [same]
      · simp [same, Ne.symm same]
    cases declaration with
    | printer other printer => exact set other (.eager printer)
    | lazyPrinter other factory => exact set other (.lazy factory)
    | parser other parser => rfl
    | lazyParser other factory => rfl
    | hook other hook => rfl
    | lazyHooks other factory => rfl

section
variable {lookup : Plugin κ → Option (Deferred κ.State α)} {source? : Declaration κ → Option (Source κ.State α)}

theorem LastDeclared.foldl (last : LastDeclared lookup source?) (declarations : List (Declaration κ))
    (plugin : Plugin κ) :
    lookup (declarations.foldl Plugin.declare plugin) =
      ((declarations.filterMap source?).getLast?.map Source.deferred).or (lookup plugin) := by
  induction declarations generalizing plugin with
  | nil => rfl
  | cons declaration rest ih =>
    rw [List.foldl_cons, ih, last.declare]
    cases found : source? declaration with
    | none => rw [List.filterMap_cons_none found, Option.map_none, Option.none_or]
    | some source =>
      rw [List.filterMap_cons_some found, List.getLast?_cons]
      cases (rest.filterMap source?).getLast? <;> rfl

theorem LastDeclared.lookup_plugin (last : LastDeclared lookup source?) (bundle : Bundle κ) :
    lookup bundle.plugin = (bundle.declarations.filterMap source?).getLast?.map Source.deferred := by
  rw [Bundle.plugin, Plugin.ofDeclarations, last.foldl, last.bare, Option.or_none]

theorem name_declare (plugin : Plugin κ) (declaration : Declaration κ) :
    (plugin.declare declaration).name = plugin.name := by
  cases declaration <;> rfl

theorem name_plugin (bundle : Bundle κ) : bundle.plugin.name = bundle.name := by
  suffices kept : ∀ (declarations : List (Declaration κ)) (plugin : Plugin κ),
      (declarations.foldl Plugin.declare plugin).name = plugin.name from kept _ _
  intro declarations
  induction declarations with
  | nil => exact fun _ => rfl
  | cons declaration rest ih => exact fun plugin => (ih _).trans (name_declare plugin declaration)

/-! ## In a registry -/

/-- The last plugin that has something for a name has what was declared for it last. -/
theorem LastDeclared.last? (last : LastDeclared lookup source?) {registry : Registry κ} {bundles : List (Bundle κ)}
    (plugins : registry.plugins = bundles.map Bundle.plugin) :
    (registry.last? fun plugin => (lookup plugin).isSome).map (fun plugin => (plugin.name, lookup plugin)) =
      (sourcesOf source? bundles).getLast?.map fun (name, source) => (name, some source.deferred) := by
  rw [Registry.last?, plugins]
  clear plugins
  induction bundles with
  | nil => rfl
  | cons bundle rest ih =>
    -- The plugins after it come first; when none of them has anything, the plugin itself may.
    rw [List.map_cons, List.reverse_cons, List.find?_append, Option.map_or, ih, sourcesOf_cons,
      List.getLast?_append, Option.map_or, List.getLast?_map, Option.map_map]
    congr 1
    rw [List.find?_singleton, last.lookup_plugin]
    cases own : (bundle.declarations.filterMap source?).getLast? with
    | none => rfl
    | some source => simp [last.lookup_plugin, own, name_plugin]

/-- Either nothing is declared and no plugin is found, or the plugin that is found has the last source. -/
theorem LastDeclared.search (last : LastDeclared lookup source?) {registry : Registry κ}
    {bundles : List (Bundle κ)} (plugins : registry.plugins = bundles.map Bundle.plugin) :
    ((sourcesOf source? bundles).getLast? = none ∧ (registry.last? fun plugin => (lookup plugin).isSome) = none) ∨
      ∃ plugin source, (sourcesOf source? bundles).getLast? = some (plugin.name, source) ∧
        (registry.last? fun plugin => (lookup plugin).isSome) = some plugin ∧
        lookup plugin = some source.deferred := by
  have same := last.last? plugins
  cases found : (sourcesOf source? bundles).getLast? with
  | none =>
    rw [found, Option.map_none, Option.map_eq_none_iff] at same
    exact .inl ⟨rfl, same⟩
  | some winner =>
    obtain ⟨name, source⟩ := winner
    rw [found] at same
    obtain ⟨plugin, search, both⟩ := Option.map_eq_some_iff.mp same
    obtain ⟨rfl, has⟩ := Prod.mk.inj both
    exact .inr ⟨plugin, source, rfl, search, has⟩

end

theorem resolveParser_eq {registry : Registry κ} {bundles : List (Bundle κ)}
    (plugins : registry.plugins = bundles.map Bundle.plugin) (profile : Profile κ) (name : String) :
    registry.resolveParser profile name =
      takeFrom (winner? parserSource? name bundles)
        (if name = "" then parserNameRequired else unknownParser name)
        (fun plugin source parser =>
          .resolvedParser name plugin (profile.treeFormat parser) source.deferred.isLazy) := by
  unfold resolveParser findParser winner? takeFrom
  by_cases unnamed : name = ""
  · simp only [if_pos unnamed]
    rfl
  · simp only [if_neg unnamed, Plugin.hasParser]
    rcases (parser_lastDeclared name).search plugins with ⟨none, search⟩ | ⟨plugin, source, some, search, has⟩
    · rw [none, search]
      rfl
    · rw [some, search]
      simp only [Action.ofExcept, pure_bind, has]

theorem resolvePrinter_eq {registry : Registry κ} {bundles : List (Bundle κ)}
    (plugins : registry.plugins = bundles.map Bundle.plugin) (treeFormat : String) :
    registry.resolvePrinter treeFormat =
      takeFrom (winner? printerSource? treeFormat bundles)
        (if treeFormat = "" then treeFormatRequired else unknownTreeFormat treeFormat)
        (fun plugin source _ => .resolvedPrinter treeFormat plugin source.deferred.isLazy) := by
  unfold resolvePrinter findPrinter winner? takeFrom
  by_cases unnamed : treeFormat = ""
  · simp only [if_pos unnamed]
    rfl
  · simp only [if_neg unnamed, Plugin.hasPrinter]
    rcases (printer_lastDeclared treeFormat).search plugins with ⟨none, search⟩ | ⟨plugin, source, some, search, has⟩
    · rw [none, search]
      rfl
    · rw [some, search]
      simp only [Action.ofExcept, pure_bind, has]

end Polyglot.Declared
