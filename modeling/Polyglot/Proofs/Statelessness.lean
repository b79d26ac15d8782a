import Polyglot.Proofs.Bystanders
import Polyglot.Proofs.Documents
import Polyglot.Proofs.Retry

/-!
# Nothing kept but in the options

Plugins whose parts and hooks keep nothing but in the options do the same in any two worlds, with options that are alike
(`Stateless`), and so does a whole parse with such plugins (`matches_parse`). The languages are of that kind when those
whose documents they embed are, so it is enough that the other plugins of a kit are (`exists_inner`).
-/

namespace Polyglot

open Outcome Pipeline Declared

variable {κ : Kit} {σ α β : Type}

/-! ## Any two worlds -/

namespace Recovery

/-- No factory fails, and what plugins keep makes no difference. -/
def forgetful (σ : Type) : Recovery σ := ⟨fun _ => 0, fun _ _ => True⟩

theorem worldMended_forgetful (world other : World σ) : (forgetful σ).WorldMended world other :=
  ⟨fun _ => Nat.zero_le _, trivial⟩

theorem matches_forgetful_iff {step other : Action σ α} :
    Matches (forgetful σ).WorldMended step other ↔ ∀ before begun, answer (step before) = answer (other begun) := by
  constructor
  · exact fun same before begun => answer_eq_of_agree (same before begun (worldMended_forgetful before begun))
  · intro same before begun _
    have answers := same before begun
    cases made : step before <;> cases matched : other begun <;> rw [made, matched] at answers <;> cases answers
    · exact .ok (worldMended_forgetful _ _)
    · exact .error (worldMended_forgetful _ _)

end Recovery

namespace Statelessness

open Recovery

/-! ## Options that are alike -/

/-- Options with related plugins that are the same but for the committed text. -/
structure Abreast (related : Plugin κ → Plugin κ → Prop) (first second : Options κ) : Prop where
  plugins : List.Forall₂ related first.registry.plugins second.registry.plugins
  context : first.context = second.context
  settings : first.settings = second.settings

/-- Options with related plugins that are the same otherwise. -/
structure Alike (related : Plugin κ → Plugin κ → Prop) (first second : Options κ) : Prop
    extends Abreast related first second where
  committed : first.committed = second.committed

/-- Runs with options that are alike, in whatever worlds. -/
def Level (related : Plugin κ → Plugin κ → Prop) (first second : Invocation κ) : Prop :=
  Alike related first.options second.options

/-- What the plugin provides keeps nothing but in the options: with options that are alike it does the same in any two
    worlds, and what its hooks make of such options is alike again. -/
structure Stateless (capabilities : Capabilities κ) (related : Plugin κ → Plugin κ → Prop) (plugin : Plugin κ) :
    Prop where
  preprocess {parser : κ.Parser} (provides : Provides plugin.parser? parser) (raw : String) {first second : Options κ}
    (alike : Alike related first second) :
    Matches (forgetful κ.State).WorldMended (capabilities.preprocess parser raw first)
      (capabilities.preprocess parser raw second)
  parse {parser : κ.Parser} (provides : Provides plugin.parser? parser) (text : String) {first second : Options κ}
    (alike : Alike related first second) :
    Matches (forgetful κ.State).WorldMended (capabilities.parse parser text first)
      (capabilities.parse parser text second)
  beforeParse {hook : κ.Hook} (provides : ProvidesHook plugin hook) (text : String) :
    Matches (Level related) (capabilities.beforeParse hook text) (capabilities.beforeParse hook text)
  afterParse {hook : κ.Hook} (provides : ProvidesHook plugin hook) (tree : Tree) :
    Matches (Level related) (capabilities.afterParse hook tree) (capabilities.afterParse hook tree)

/-- Related plugins resolve alike in any two worlds, and what they provide keeps nothing but in the options. -/
structure Memoryless (capabilities : Capabilities κ) (related : Plugin κ → Plugin κ → Prop) : Prop where
  resolves {plugin other : Plugin κ} (same : related plugin other) : (forgetful κ.State).PluginMended plugin other
  calls {plugin other : Plugin κ} (same : related plugin other) : Stateless capabilities related plugin

section
variable {related : Plugin κ → Plugin κ → Prop}

theorem Abreast.embedded {first second : Options κ} (abreast : Abreast related first second) (parser : String) :
    Alike related (first.embedded parser) (second.embedded parser) where
  plugins := abreast.plugins
  context := congrArg (·.nested parser) abreast.context
  settings := abreast.settings
  committed := rfl

theorem akin_ofAction {action other : Options κ → Action κ.State α} {before begun : Invocation κ}
    (level : Level related before begun)
    (same : Matches (forgetful κ.State).WorldMended (action before.options) (other begun.options)) :
    Akin (Level related) Eq (Run.ofAction action before) (Run.ofAction other begun) :=
  .ofAction (agree_iff_akin.mp (same _ _ (worldMended_forgetful _ _))) fun _ _ _ => level

theorem lenient_level : Lenient (Level related) where
  report _ _ := fun _ _ level => .ok level
  commit text := by
    rintro before begun ⟨abreast, _⟩
    exact .ok ⟨⟨abreast.plugins, abreast.context, abreast.settings⟩, rfl⟩

end

/-! ## A parse in two worlds -/

section
variable {capabilities : Capabilities κ} {related : Plugin κ → Plugin κ → Prop}
  (memoryless : Memoryless capabilities related)
include memoryless

theorem mended_plugins {first second : Registry κ} (plugins : List.Forall₂ related first.plugins second.plugins) :
    List.Forall₂ (forgetful κ.State).PluginMended first.plugins second.plugins :=
  plugins.imp fun _ _ same => memoryless.resolves same

theorem stateless_of_mem {first second : List (Plugin κ)} (plugins : List.Forall₂ related first second)
    {plugin : Plugin κ} (member : plugin ∈ first) : Stateless capabilities related plugin := by
  induction plugins with
  | nil => cases member
  | cons same _ ih =>
    rcases List.mem_cons.mp member with rfl | member
    · exact memoryless.calls same
    · exact ih member

theorem akin_enter {before begun : Invocation κ} (level : Level related before begun) :
    Akin (Level related) Eq (enter capabilities.toProfile before) (enter capabilities.toProfile begun) := by
  refine akin_ofAction level ((Recovery.matches_report _ _ _).bind fun _ => ?_)
  rw [level.context]
  exact matches_resolveParser (mended_plugins memoryless level.plugins) _ _

theorem akin_gather {before begun : Invocation κ} (level : Level related before begun) (parser : κ.Parser) :
    Akin (Level related) Eq (gather capabilities.toProfile parser before)
      (gather capabilities.toProfile parser begun) := by
  refine (akin_ofAction level (matches_resolveHooks (mended_plugins memoryless level.plugins) _)).bind ?_
  rintro resolved _ after last _ rfl level
  refine akin_ofAction level ?_
  rw [level.context]
  exact fun _ _ _ => .ok (worldMended_forgetful _ _)

omit memoryless in
/-- The hooks that take part are provided by plugins of the registry. -/
theorem providesHook_of_gather {profile : Profile κ} {parser : κ.Parser} {before after : Invocation κ}
    {hooks : List κ.Hook} (gathers : gather profile parser before = .ok hooks after) {hook : κ.Hook}
    (member : hook ∈ hooks) : ∃ plugin ∈ before.options.registry.plugins, ProvidesHook plugin hook := by
  obtain ⟨resolved, world, resolves, rfl, _⟩ := gather_eq_ok_iff.mp gathers
  have among := (List.mem_filter.mp member).1
  unfold Registry.resolveHooks at resolves
  split at resolves
  · cases resolves
  · obtain ⟨lists, _, supplied, rest⟩ := bind_eq_ok_iff.mp resolves
    cases rest
    obtain ⟨own, listed, inside⟩ := List.mem_flatten.mp among
    obtain ⟨plugin, held, _, _, gives⟩ := exists_of_mem_right (forall₂_of_mapM_ok supplied) listed
    exact ⟨plugin, held, providesHook_of_ownHooks gives hook inside⟩

/-- A parse, run with options that are alike in any two worlds, ends with the same result and with such options. -/
theorem matches_parse (pipeline : Pipeline) (raw : String) :
    Matches (Level related) (pipeline.parse capabilities raw) (pipeline.parse capabilities raw) := by
  intro before begun level
  rw [parse_eq_proceed]
  refine agree_iff_akin.mpr ((akin_enter memoryless level).bind ?_)
  rintro parser _ entered first enters rfl level
  obtain ⟨_, resolves, rfl⟩ := enter_eq_ok_iff.mp enters
  obtain ⟨plugin, member, provides⟩ := provides_of_resolveParser resolves
  have parserStateless := stateless_of_mem memoryless level.plugins member
  refine (akin_gather memoryless level parser).bind ?_
  rintro hooks _ gathered second gathers rfl later
  have hookStateless {hook : κ.Hook} (taken : hook ∈ hooks) :
      ∃ plugin, Stateless capabilities related plugin ∧ ProvidesHook plugin hook := by
    obtain ⟨plugin, member, provides⟩ := providesHook_of_gather gathers taken
    exact ⟨plugin, stateless_of_mem memoryless level.plugins member, provides⟩
  refine (akin_ofAction later (parserStateless.preprocess provides raw later)).bind ?_
  rintro text _ ready third _ rfl last
  refine agree_iff_akin.mp (lenient_level.proceed (fun _ => rfl) ?_ ?_ ?_ pipeline raw text _ _ last)
  · intro made before begun level
    exact agree_iff_akin.mpr (akin_ofAction level (parserStateless.parse provides made level))
  · intro hook taken made
    obtain ⟨plugin, stateless, provides⟩ := hookStateless taken
    exact stateless.beforeParse provides made
  · intro hook taken tree
    obtain ⟨plugin, stateless, provides⟩ := hookStateless taken
    exact stateless.afterParse provides tree

/-! ## Embedded documents -/

section
variable {first second : Options κ} (abreast : Abreast related first second)
include abreast

/-- An embedded document is parsed to the same, and its own options end alike. -/
theorem akin_parseOn (pipeline : Pipeline) (raw parser : String) (before begun : World κ.State) :
    Akin (forgetful κ.State).WorldMended
      (fun made other => made.1 = other.1 ∧ Alike related made.2 other.2)
      (pipeline.parseOn capabilities raw (first.embedded parser) before)
      (pipeline.parseOn capabilities raw (second.embedded parser) begun) := by
  have level : Level related ⟨first.embedded parser, before⟩ ⟨second.embedded parser, begun⟩ := abreast.embedded parser
  have agree := matches_parse memoryless pipeline raw _ _ level
  unfold parseOn Run.on
  generalize pipeline.parse capabilities raw ⟨first.embedded parser, before⟩ = made at agree ⊢
  generalize pipeline.parse capabilities raw ⟨second.embedded parser, begun⟩ = matched at agree ⊢
  cases agree with
  | ok level => exact .ok ⟨rfl, level⟩ (worldMended_forgetful _ _)
  | error => exact .error (worldMended_forgetful _ _)

theorem matches_parseEmbedded (parser : String) (text : List Char) :
    Matches (forgetful κ.State).WorldMended (Language.parseEmbedded capabilities parser text first)
      (Language.parseEmbedded capabilities parser text second) := by
  intro before begun worlds
  refine agree_iff_akin.mpr ((akin_parseOn memoryless abreast {} (.ofList text) parser before begun).bind ?_)
  rintro ⟨parsed, _⟩ ⟨_, _⟩ after last _ ⟨rfl, _⟩ worlds
  exact .ok rfl worlds

theorem matches_parseTemplate (text : List Char) :
    Matches (forgetful κ.State).WorldMended (Language.parseTemplate capabilities text first)
      (Language.parseTemplate capabilities text second) := by
  unfold Language.parseTemplate
  cases Language.Template.parse text with
  | error problem => exact matches_throw _
  | ok template =>
    cases template with
    | plain text => exact matches_pure _
    | bound before inner after =>
      exact (matches_parseEmbedded memoryless abreast _ inner).bind fun _ => matches_pure _

theorem matches_parseBlock (block : Language.Block) :
    Matches (forgetful κ.State).WorldMended (Language.parseBlock capabilities first block)
      (Language.parseBlock capabilities second block) := by
  cases block with
  | prose text => exact matches_pure _
  | code language text =>
    cases known : Language.parserOfCode language with
    | none =>
      simp only [Language.parseBlock, known]
      exact matches_pure _
    | some parser =>
      simp only [Language.parseBlock, known]
      refine (matches_resolveParser (mended_plugins memoryless abreast.plugins) _ parser).bind fun resolved => ?_
      exact (matches_parseEmbedded memoryless abreast parser text).bind fun tree => matches_pure _

theorem matches_parseProse (text : List Char) :
    Matches (forgetful κ.State).WorldMended (Language.parseProse capabilities text first)
      (Language.parseProse capabilities text second) := by
  exact (Matches.mapM fun block _ => matches_parseBlock memoryless abreast block).bind fun _ => matches_pure _

/-- The languages keep nothing themselves. -/
theorem matches_language (language : Language) (text : String) :
    Matches (forgetful κ.State).WorldMended (language.parse capabilities text first)
      (language.parse capabilities text second) := by
  cases language with
  | declaration => exact matches_outcome _
  | expression => exact matches_outcome _
  | template => exact matches_parseTemplate memoryless abreast _
  | prose => exact matches_parseProse memoryless abreast _

end

end

/-! ## The languages and other plugins -/

/-- The rules of a kit that has the languages among its parsers. A language parses with what the rules are given for
    embedded documents. -/
structure Speaks (rules : Capabilities κ → Capabilities κ) (parsers : Language → κ.Parser) : Prop where
  preprocess (inner : Capabilities κ) (language : Language) (raw : String) (options : Options κ) :
    (rules inner).preprocess (parsers language) raw options = pure raw
  parse (inner : Capabilities κ) (language : Language) :
    (rules inner).parse (parsers language) = language.parse inner

/-- The plugin of the languages. -/
def languageBundle (parsers : Language → κ.Parser) (printers : TreeFormat → κ.Printer) : Bundle κ :=
  ⟨"languages", [
    .parser Language.declaration.parserName (parsers .declaration),
    .parser Language.expression.parserName (parsers .expression),
    .printer TreeFormat.estree.name (printers .estree),
    .parser Language.template.parserName (parsers .template),
    .printer TreeFormat.vue.name (printers .vue),
    .parser Language.prose.parserName (parsers .prose),
    .printer TreeFormat.mdast.name (printers .mdast)]⟩

/-- The plugin of the languages and further plugins. -/
inductive WithLanguages (parsers : Language → κ.Parser) (printers : TreeFormat → κ.Printer)
    (same : Plugin κ → Plugin κ → Prop) : Plugin κ → Plugin κ → Prop
  | languages : WithLanguages parsers printers same (languageBundle parsers printers).plugin
      (languageBundle parsers printers).plugin
  | further {plugin other : Plugin κ} (alike : same plugin other) : WithLanguages parsers printers same plugin other

/-- Plugins beside the languages that keep nothing but in the options. Two that are the same need not be equal: a hook
    that registers a plugin registers a new one each time. -/
structure Guests (rules : Capabilities κ → Capabilities κ) (parsers : Language → κ.Parser)
    (printers : TreeFormat → κ.Printer) (same : Plugin κ → Plugin κ → Prop) : Prop where
  resolves {plugin other : Plugin κ} (alike : same plugin other) : (forgetful κ.State).PluginMended plugin other
  calls {inner : Capabilities κ} (memoryless : Memoryless inner (WithLanguages parsers printers same))
    {plugin other : Plugin κ} (alike : same plugin other) :
    Stateless (rules inner) (WithLanguages parsers printers same) plugin

section
variable {rules : Capabilities κ → Capabilities κ} {parsers : Language → κ.Parser} {printers : TreeFormat → κ.Printer}

theorem mended_languages (parsers : Language → κ.Parser) (printers : TreeFormat → κ.Printer) :
    (forgetful κ.State).PluginMended (languageBundle parsers printers).plugin
      (languageBundle parsers printers).plugin := by
  have bundles : (forgetful κ.State).BundleMended (languageBundle parsers printers) (languageBundle parsers printers) :=
    ⟨rfl, .cons (.parser _ _) (.cons (.parser _ _) (.cons (.printer _ _) (.cons (.parser _ _) (.cons (.printer _ _)
      (.cons (.parser _ _) (.cons (.printer _ _) .nil))))))⟩
  exact bundles.plugin

/-- Every parser of the plugin is a language's. -/
theorem exists_language_of_provides {parser : κ.Parser}
    (provides : Provides (languageBundle parsers printers).plugin.parser? parser) :
    ∃ language, parser = parsers language := by
  obtain ⟨name, deferred, before, after, held, gives⟩ := provides
  have last := (parser_lastDeclared name).lookup_plugin (languageBundle parsers printers)
  rw [held] at last
  obtain ⟨source, found, rfl⟩ := Option.map_eq_some_iff.mp last.symm
  obtain ⟨declaration, declared, named⟩ := List.mem_filterMap.mp (List.mem_of_getLast? found)
  have eager {other : String} {held : κ.Parser} (taken : parserSource? name (.parser other held) = some source) :
      parser = held := by
    simp only [parserSource?] at taken
    split at taken
    · cases taken
      cases gives
      rfl
    · cases taken
  simp only [languageBundle, List.mem_cons, List.not_mem_nil, or_false] at declared
  rcases declared with rfl | rfl | rfl | rfl | rfl | rfl | rfl
  · exact ⟨_, eager named⟩
  · exact ⟨_, eager named⟩
  · cases named
  · exact ⟨_, eager named⟩
  · cases named
  · exact ⟨_, eager named⟩
  · cases named

theorem not_providesHook_languages (hook : κ.Hook) : ¬ ProvidesHook (languageBundle parsers printers).plugin hook := by
  rintro ⟨_, ⟨_, _, _, _, held, _⟩, _⟩
  cases held

theorem stateless_languages (speaks : Speaks rules parsers) {inner : Capabilities κ}
    {related : Plugin κ → Plugin κ → Prop} (memoryless : Memoryless inner related) :
    Stateless (rules inner) related (languageBundle parsers printers).plugin where
  preprocess provides raw _ _ _ := by
    obtain ⟨language, rfl⟩ := exists_language_of_provides provides
    rw [speaks.preprocess, speaks.preprocess]
    exact matches_pure raw
  parse provides text _ _ alike := by
    obtain ⟨language, rfl⟩ := exists_language_of_provides provides
    rw [speaks.parse]
    exact matches_language memoryless alike.toAbreast language text
  beforeParse provides := absurd provides (not_providesHook_languages _)
  afterParse provides := absurd provides (not_providesHook_languages _)

theorem stateless_refusing (profile : Profile κ) (related : Plugin κ → Plugin κ → Prop) (plugin : Plugin κ) :
    Stateless (.refusing profile) related plugin where
  preprocess _ _ _ _ _ := matches_throw _
  parse _ _ _ _ _ := matches_throw _
  beforeParse _ _ := matches_throw _
  afterParse _ _ := matches_throw _

section
variable {same : Plugin κ → Plugin κ → Prop} (speaks : Speaks rules parsers)
  (guests : Guests rules parsers printers same)

include guests in
theorem mended_withLanguages {plugin other : Plugin κ} (related : WithLanguages parsers printers same plugin other) :
    (forgetful κ.State).PluginMended plugin other := by
  cases related with
  | languages => exact mended_languages parsers printers
  | further alike => exact guests.resolves alike

include speaks guests

theorem memoryless_rules {inner : Capabilities κ}
    (memoryless : Memoryless inner (WithLanguages parsers printers same)) :
    Memoryless (rules inner) (WithLanguages parsers printers same) where
  resolves related := mended_withLanguages guests related
  calls related := by
    cases related with
    | languages => exact stateless_languages speaks memoryless
    | further alike => exact guests.calls memoryless alike

/-- However deep documents may be embedded, those who embed them are given capabilities that keep nothing. -/
theorem exists_inner (profile : Profile κ) (depth : Nat) :
    ∃ inner, Capabilities.nest profile rules depth = rules inner ∧
      Memoryless inner (WithLanguages parsers printers same) := by
  induction depth with
  | zero =>
    exact ⟨.refusing profile, rfl, ⟨fun related => mended_withLanguages guests related,
      fun _ => stateless_refusing profile _ _⟩⟩
  | succ depth ih =>
    obtain ⟨inner, whole, memoryless⟩ := ih
    exact ⟨.nest profile rules depth, rfl, whole ▸ memoryless_rules speaks guests memoryless⟩

end

end

end Statelessness

end Polyglot
