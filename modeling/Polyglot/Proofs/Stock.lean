import Mathlib.Data.List.Nodup
import Polyglot.Proofs.Winner

/-!
# Stocks of bundles

Bundles may be registered again and again, but each of their factories is declared once
(`Stock`). So the number of a factory tells by which declaration of which bundle it stands
(`Stock.Declares.unique`); and the hooks of a tree format take a factory as often as its bundle is
registered (`Stock.count_hookIds`).
-/

namespace Polyglot.Declared

variable {κ : Kit} {σ α : Type}

/-- The number of the factory of a declaration, if it has one. -/
def factory? : Declaration κ → Option Nat
  | .lazyParser _ factory => some factory.id
  | .lazyPrinter _ factory => some factory.id
  | .lazyHooks _ factory => some factory.id
  | .parser _ _ | .printer _ _ | .hook _ _ => none

/-- The numbers of the factories that a bundle declares. -/
def Bundle.factories (bundle : Bundle κ) : List Nat := bundle.declarations.filterMap factory?

/-- Bundles whose factories all have numbers of their own. -/
structure Stock (κ : Kit) where
  holds : Bundle κ → Prop
  distinct {bundle : Bundle κ} (held : holds bundle) : bundle.factories.Nodup
  apart {bundle other : Bundle κ} {id : Nat} (held : holds bundle) (also : holds other)
    (mine : id ∈ bundle.factories) (its : id ∈ other.factories) : bundle = other

/-- The numbers of the factories of the hooks of a tree format, by registration and then by declaration. -/
def hookIds (treeFormat : String) (bundles : List (Bundle κ)) : List Nat :=
  (hookSources treeFormat bundles).filterMap HookSource.id?

/-- The number of the factory that a capability is taken from, if it is taken from one. -/
def winnerIds (winner : Option (String × Source σ α)) : List Nat :=
  (winner.bind fun (_, source) => source.id?).toList

/-! ## Which declarations numbers stand for -/

theorem mem_factories {bundle : Bundle κ} {declaration : Declaration κ} {id : Nat}
    (declared : declaration ∈ bundle.declarations) (number : factory? declaration = some id) :
    id ∈ bundle.factories :=
  List.mem_filterMap.mpr ⟨declaration, declared, number⟩

/-- Where numbers do not repeat, two declarations of one number are one. -/
theorem eq_of_factory?_eq {declarations : List (Declaration κ)} (distinct : (declarations.filterMap factory?).Nodup)
    {declaration other : Declaration κ} {id : Nat} (mine : declaration ∈ declarations) (its : other ∈ declarations)
    (number : factory? declaration = some id) (same : factory? other = some id) : declaration = other := by
  induction declarations with
  | nil => cases mine
  | cons head rest ih =>
    cases first : factory? head with
    | none =>
      rw [List.filterMap_cons_none first] at distinct
      refine ih distinct ((List.mem_cons.mp mine).resolve_left ?_) ((List.mem_cons.mp its).resolve_left ?_)
      · rintro rfl
        cases first.symm.trans number
      · rintro rfl
        cases first.symm.trans same
    | some taken =>
      rw [List.filterMap_cons_some first] at distinct
      obtain ⟨fresh, distinct⟩ := List.nodup_cons.mp distinct
      -- A number of the head does not come again in the rest.
      have absent {later : Declaration κ} (member : later ∈ rest) : factory? later ≠ some taken :=
        fun again => fresh (List.mem_filterMap.mpr ⟨later, member, again⟩)
      rcases List.mem_cons.mp mine with rfl | later <;> rcases List.mem_cons.mp its with rfl | also
      · rfl
      · cases first.symm.trans number
        exact absurd same (absent also)
      · cases first.symm.trans same
        exact absurd number (absent later)
      · exact ih distinct later also

/-- A bundle of the stock has the declaration, with a factory of this number. -/
def Stock.Declares (stock : Stock κ) (bundle : Bundle κ) (declaration : Declaration κ) (id : Nat) : Prop :=
  stock.holds bundle ∧ declaration ∈ bundle.declarations ∧ factory? declaration = some id

/-- In a stock a number stands for one declaration of one bundle. -/
theorem Stock.Declares.unique {stock : Stock κ} {bundle other : Bundle κ} {declaration again : Declaration κ}
    {id : Nat} (declares : stock.Declares bundle declaration id) (also : stock.Declares other again id) :
    bundle = other ∧ declaration = again := by
  obtain ⟨held, mine, number⟩ := declares
  obtain ⟨heldToo, its, same⟩ := also
  have one := stock.apart held heldToo (mem_factories mine number) (mem_factories its same)
  subst one
  exact ⟨rfl, eq_of_factory?_eq (stock.distinct held) mine its number same⟩

section
variable {bundles : List (Bundle κ)} {id : Nat}

theorem parserSource?_eq_lazy {name : String} {declaration : Declaration κ} {factory : Factory κ.State κ.Parser}
    (source : parserSource? name declaration = some (.lazy factory)) : declaration = .lazyParser name factory := by
  cases declaration with
  | lazyParser other declared =>
    obtain ⟨rfl, same⟩ := Option.ite_none_right_eq_some.mp source
    cases same
    rfl
  | parser other parser =>
    obtain ⟨_, never⟩ := Option.ite_none_right_eq_some.mp source
    cases never
  | printer _ _ | lazyPrinter _ _ | hook _ _ | lazyHooks _ _ => cases source

theorem printerSource?_eq_lazy {treeFormat : String} {declaration : Declaration κ}
    {factory : Factory κ.State κ.Printer} (source : printerSource? treeFormat declaration = some (.lazy factory)) :
    declaration = .lazyPrinter treeFormat factory := by
  cases declaration with
  | lazyPrinter other declared =>
    obtain ⟨rfl, same⟩ := Option.ite_none_right_eq_some.mp source
    cases same
    rfl
  | printer other printer =>
    obtain ⟨_, never⟩ := Option.ite_none_right_eq_some.mp source
    cases never
  | parser _ _ | lazyParser _ _ | hook _ _ | lazyHooks _ _ => cases source

theorem sourceOf?_eq_lazy {treeFormat : String} {declaration : Declaration κ}
    {factory : Factory κ.State (List κ.Hook)} (source : sourceOf? treeFormat declaration = some (.lazy factory)) :
    declaration = .lazyHooks treeFormat factory := by
  cases declaration with
  | lazyHooks other declared =>
    obtain ⟨rfl, same⟩ := Option.ite_none_right_eq_some.mp source
    cases same
    rfl
  | hook other hook =>
    obtain ⟨_, never⟩ := Option.ite_none_right_eq_some.mp source
    cases never
  | parser _ _ | lazyParser _ _ | printer _ _ | lazyPrinter _ _ => cases source

/-- The winner is declared by a bundle of the name that it goes with. -/
theorem declared_of_winner? {source? : String → Declaration κ → Option (Source κ.State α)} {name plugin : String}
    {source : Source κ.State α} (winner : winner? source? name bundles = some (plugin, source)) :
    ∃ bundle ∈ bundles, bundle.name = plugin ∧ ∃ declaration ∈ bundle.declarations,
      source? name declaration = some source := by
  unfold winner? at winner
  split at winner
  · cases winner
  · obtain ⟨bundle, member, among⟩ := List.mem_flatMap.mp (List.mem_of_getLast? winner)
    obtain ⟨_, declared, same⟩ := List.mem_map.mp among
    obtain ⟨rfl, rfl⟩ := Prod.mk.inj same
    exact ⟨bundle, member, rfl, List.mem_filterMap.mp declared⟩

/-- The factory that a capability is taken from is that of the winner. -/
theorem winner_of_mem_winnerIds {winner : Option (String × Source σ α)} (member : id ∈ winnerIds winner) :
    ∃ plugin factory, winner = some (plugin, .lazy factory) ∧ factory.id = id := by
  obtain ⟨⟨plugin, source⟩, rfl, number⟩ := Option.bind_eq_some_iff.mp (Option.mem_toList.mp member)
  cases source with
  | eager value => cases number
  | lazy factory => exact ⟨plugin, factory, rfl, Option.some.inj number⟩

theorem nodup_winnerIds (winner : Option (String × Source σ α)) : (winnerIds winner).Nodup := by
  unfold winnerIds
  cases winner.bind fun (_, source) => source.id? with
  | none => exact List.nodup_nil
  | some id => exact List.nodup_singleton id

theorem mem_hookIds_iff {treeFormat : String} : id ∈ hookIds treeFormat bundles ↔
    ∃ bundle ∈ bundles, ∃ factory, .lazyHooks treeFormat factory ∈ bundle.declarations ∧ factory.id = id := by
  simp only [hookIds, hookSources, List.mem_filterMap, List.mem_flatMap]
  constructor
  · rintro ⟨source, ⟨bundle, member, declaration, declared, found⟩, number⟩
    cases source with
    | eager hook => cases number
    | lazy factory =>
      obtain rfl := sourceOf?_eq_lazy found
      exact ⟨bundle, member, factory, declared, Option.some.inj number⟩
  · rintro ⟨bundle, member, factory, declared, rfl⟩
    exact ⟨.lazy factory, ⟨bundle, member, _, declared, if_pos rfl⟩, rfl⟩

/-! ## How often hooks take a factory -/

/-- The factories of the hooks of a bundle for a tree format are some of its factories, in their order. -/
theorem hookIds_singleton_sublist (treeFormat : String) (bundle : Bundle κ) :
    (hookIds treeFormat [bundle]).Sublist bundle.factories := by
  have one : hookIds treeFormat [bundle] =
      (bundle.declarations.filterMap (sourceOf? treeFormat)).filterMap HookSource.id? := by
    rw [hookIds, hookSources, List.flatMap_singleton]
  rw [one, List.filterMap_filterMap, Bundle.factories]
  clear one
  induction bundle.declarations with
  | nil => exact .slnil
  | cons declaration rest ih =>
    rw [List.filterMap_cons]
    cases found : (sourceOf? treeFormat declaration).bind HookSource.id? with
    | none => exact ih.trans ((List.sublist_cons_self _ _).filterMap _)
    | some id =>
      obtain ⟨source, taken, number⟩ := Option.bind_eq_some_iff.mp found
      cases source with
      | eager hook => cases number
      | lazy factory =>
        obtain rfl := sourceOf?_eq_lazy taken
        have same : factory? (.lazyHooks treeFormat factory : Declaration κ) = some id := number
        rw [List.filterMap_cons_some same]
        exact ih.cons_cons id

theorem hookIds_cons (treeFormat : String) (bundle : Bundle κ) (rest : List (Bundle κ)) :
    hookIds treeFormat (bundle :: rest) = hookIds treeFormat [bundle] ++ hookIds treeFormat rest := by
  simp only [hookIds, hookSources, List.flatMap_cons, List.flatMap_nil, List.append_nil, List.filterMap_append]

/-- The hooks of its tree format take a factory as often as its bundle is registered. -/
theorem Stock.count_hookIds {stock : Stock κ} (held : ∀ bundle ∈ bundles, stock.holds bundle) {bundle : Bundle κ}
    {treeFormat : String} {factory : Factory κ.State (List κ.Hook)}
    (declares : stock.Declares bundle (.lazyHooks treeFormat factory) id) :
    (hookIds treeFormat bundles).count id = bundles.countP fun other => id ∈ other.factories := by
  obtain ⟨also, declared, number⟩ := declares
  induction bundles with
  | nil => rfl
  | cons head rest ih =>
    have headHeld := held head List.mem_cons_self
    have restCount := ih fun other member => held other (List.mem_cons_of_mem head member)
    rw [hookIds_cons, List.count_append, restCount, List.countP_cons, Nat.add_comm]
    congr 1
    by_cases taken : id ∈ head.factories
    · -- Then the head is the bundle of the factory itself.
      have same := stock.apart headHeld also taken (mem_factories declared number)
      subst same
      have member : id ∈ hookIds treeFormat [head] :=
        mem_hookIds_iff.mpr ⟨head, List.mem_singleton_self head, factory, declared, Option.some.inj number⟩
      rw [if_pos (decide_eq_true taken)]
      exact List.count_eq_one_of_mem ((stock.distinct also).sublist (hookIds_singleton_sublist treeFormat head)) member
    · rw [if_neg (by simpa using taken), List.count_eq_zero]
      exact fun member => taken ((hookIds_singleton_sublist treeFormat head).subset member)

/-- The hooks of any tree format take a factory as often as its bundle is registered at most. -/
theorem Stock.count_hookIds_le {stock : Stock κ} (held : ∀ bundle ∈ bundles, stock.holds bundle) {bundle : Bundle κ}
    {treeFormat : String} {factory : Factory κ.State (List κ.Hook)}
    (declares : stock.Declares bundle (.lazyHooks treeFormat factory) id) (other : String) :
    (hookIds other bundles).count id ≤ bundles.countP fun other => id ∈ other.factories := by
  by_cases member : id ∈ hookIds other bundles
  · obtain ⟨registered, among, again, declared, number⟩ := mem_hookIds_iff.mp member
    have also : stock.Declares registered (.lazyHooks other again) id :=
      ⟨held registered among, declared, congrArg some number⟩
    obtain ⟨_, same⟩ := declares.unique also
    cases same
    exact Nat.le_of_eq (Stock.count_hookIds held declares)
  · rw [List.count_eq_zero_of_not_mem member]
    exact Nat.zero_le _

/-- Hooks of bundles that are registered once take no factory twice. -/
theorem Stock.nodup_hookIds {stock : Stock κ} (held : ∀ bundle ∈ bundles, stock.holds bundle) (once : bundles.Nodup)
    (treeFormat : String) : (hookIds treeFormat bundles).Nodup := by
  induction bundles with
  | nil => exact List.nodup_nil
  | cons head rest ih =>
    obtain ⟨fresh, once⟩ := List.nodup_cons.mp once
    have headHeld := held head List.mem_cons_self
    rw [hookIds_cons, List.nodup_append']
    refine ⟨(stock.distinct headHeld).sublist (hookIds_singleton_sublist treeFormat head),
      ih (fun other member => held other (List.mem_cons_of_mem head member)) once, fun id mine its => fresh ?_⟩
    obtain ⟨other, member, factory, declared, rfl⟩ := mem_hookIds_iff.mp its
    have taken := (hookIds_singleton_sublist treeFormat head).subset mine
    rw [stock.apart headHeld (held other (List.mem_cons_of_mem head member)) taken (mem_factories declared rfl)]
    exact member

end

end Polyglot.Declared
