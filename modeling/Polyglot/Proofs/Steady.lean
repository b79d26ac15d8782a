import Polyglot.Proofs.Factories
import Polyglot.Proofs.Statelessness

/-!
# Steady scripts

A script is steady when its factories fail at every run or at none, and its hooks register steady scripts only. Plugins
that are built from steady scripts keep nothing but in the options, whatever else their hooks do to these
(`guests_of_steady`).
-/

namespace Polyglot.Script

open Outcome Pipeline Declared Registry Recovery Statelessness

/-- A factory fails at every run or at none. -/
def Constant (failing : Option Failing) : Prop := ∀ own ∈ failing, own.times = none

/-- An action on the options registers none but these plugins. -/
def OptionAction.Among (scripts : PluginScript → Prop) : OptionAction PluginScript → Prop
  | .register plugin => scripts plugin
  | _ => True

def HookAction.Among {α : Type} (scripts : PluginScript → Prop) : HookAction PluginScript α → Prop
  | .own _ => True
  | .options action => action.Among scripts

/-- A hook registers none but these plugins. -/
structure SteadyHook (scripts : PluginScript → Prop) (hook : HookScript PluginScript) : Prop where
  before : ∀ actions ∈ hook.before, ∀ action ∈ actions, action.Among scripts
  after : ∀ actions ∈ hook.after, ∀ action ∈ actions, action.Among scripts

def SteadyPart (scripts : PluginScript → Prop) : Part PluginScript → Prop
  | .parser .. | .printer .. => True
  | .lazyParser _ failing _ | .lazyPrinter _ failing _ => Constant failing
  | .hook _ hook => SteadyHook scripts hook
  | .lazyHooks _ failing hooks => Constant failing ∧ ∀ hook ∈ hooks, SteadyHook scripts hook

/-- All parts of these scripts are steady. -/
def Steady (scripts : PluginScript → Prop) : Prop :=
  ∀ name parts, scripts (.scripted name parts) → ∀ part ∈ parts, SteadyPart scripts part

/-- All hooks of the declaration are steady. -/
def SteadyDeclaration (scripts : PluginScript → Prop) (declaration : Declaration kit) : Prop :=
  ∀ treeFormat source, sourceOf? treeFormat declaration = some source →
    ∀ hook : ScriptHook, HookSource.Gives source hook → SteadyHook scripts hook.script

/-- Plugins put together from steady declarations, the same but for the numbers of their factories. -/
def Rebuilt (scripts : PluginScript → Prop) (plugin other : Plugin kit) : Prop :=
  ∃ first second : Bundle kit, plugin = first.plugin ∧ other = second.plugin ∧
    (forgetful Journal).BundleMended first second ∧
    ∀ declaration ∈ first.declarations, SteadyDeclaration scripts declaration

/-- The plugins of steady scripts, each the same as what else is built from its script. -/
abbrev Registered (scripts : PluginScript → Prop) : Plugin kit → Plugin kit → Prop :=
  WithLanguages ScriptParser.language ScriptPrinter.language (Rebuilt scripts)

/-- Journals make no difference. -/
abbrev AnyJournals (_ _ : Journal) : Prop := True

/-! ## Building -/

section
variable {scripts : PluginScript → Prop}

theorem matches_record (entry : Entry) : Matches AnyJournals (record entry) (record entry) := fun _ _ _ => .ok trivial

theorem matches_check {failing : Option Failing} (constant : Constant failing) (earlier run : Nat) :
    Matches AnyJournals (Failing.check failing earlier) (Failing.check failing run) := by
  cases failing with
  | none => exact matches_pure ()
  | some own =>
    obtain ⟨fault, times⟩ := own
    cases constant _ rfl
    exact matches_throw fault

theorem akin_newFactory {α : Type} {failing : Option Failing} (constant : Constant failing) {build : Build α}
    (same : Matches AnyJournals build build) (part subject : String) (before begun : Journal) :
    Akin AnyJournals (forgetful Journal).FactoryMended (newFactory part subject failing build before)
      (newFactory part subject failing build begun) := by
  refine .ok (fun earlier _ run state other _ => ?_) trivial
  have built : Matches AnyJournals (do record (.factory part subject); Failing.check failing earlier; build : Build α)
      (do record (.factory part subject); Failing.check failing run; build) :=
    (matches_record _).bind fun _ => (matches_check constant earlier run).bind fun _ => same
  exact built state other trivial

theorem matches_hookBuild (script : HookScript PluginScript) : Matches AnyJournals script.build script.build := by
  unfold HookScript.build
  cases script.scope with
  | ok scope => exact matches_pure _
  | error fault => exact matches_throw fault

theorem akin_partBuild {part : Part PluginScript} (steady : SteadyPart scripts part) (name : String)
    (before begun : Journal) :
    Akin AnyJournals (forgetful Journal).DeclarationMended (part.build name before) (part.build name begun) := by
  cases part with
  | parser parser script => exact .ok (.parser _ _) trivial
  | lazyParser parser failing script =>
    refine (akin_newFactory steady (matches_pure _) _ _ before begun).bind ?_
    rintro factory other after last _ mended _
    exact .ok (.lazyParser _ mended) trivial
  | printer treeFormat script => exact .ok (.printer _ _) trivial
  | lazyPrinter treeFormat failing script =>
    refine (akin_newFactory steady (matches_pure _) _ _ before begun).bind ?_
    rintro factory other after last _ mended _
    exact .ok (.lazyPrinter _ mended) trivial
  | hook treeFormat script =>
    refine (agree_iff_akin.mp (matches_hookBuild script before begun trivial)).bind ?_
    rintro hook _ after last _ rfl _
    exact .ok (.hook _ _) trivial
  | lazyHooks treeFormat failing hooks =>
    have built : Matches AnyJournals (hooks.mapM HookScript.build) (hooks.mapM HookScript.build) :=
      .mapM fun script _ => matches_hookBuild script
    refine (akin_newFactory steady.1 built _ _ before begun).bind ?_
    rintro factory other after last _ mended _
    exact .ok (.lazyHooks _ mended) trivial

theorem akin_declarations {parts : List (Part PluginScript)} (steady : ∀ part ∈ parts, SteadyPart scripts part)
    (name : String) (before begun : Journal) :
    Akin AnyJournals (List.Forall₂ (forgetful Journal).DeclarationMended) (parts.mapM (Part.build name) before)
      (parts.mapM (Part.build name) begun) :=
  .mapM (fun part member _ _ _ => akin_partBuild (steady part member) name _ _) trivial

theorem script_of_build {script : HookScript PluginScript} {before after : Journal} {hook : ScriptHook}
    (built : script.build before = .ok hook after) : hook.script = script := by
  cases found : script.scope with
  | ok scope =>
    simp only [HookScript.build, found] at built
    cases built
    rfl
  | error fault =>
    simp only [HookScript.build, found] at built
    cases built

theorem steadyDeclaration_of_build {part : Part PluginScript} (steady : SteadyPart scripts part) {name : String}
    {before after : Journal} {declaration : Declaration kit} (built : part.build name before = .ok declaration after) :
    SteadyDeclaration scripts declaration := by
  intro treeFormat source found given gives
  cases part with
  | parser | printer | lazyParser | lazyPrinter =>
    cases built
    cases found
  | hook other script =>
    obtain ⟨hook, _, made, rest⟩ := bind_eq_ok_iff.mp built
    cases rest
    simp only [sourceOf?] at found
    split at found
    · cases found
      cases gives
      rw [script_of_build made]
      exact steady
    · cases found
  | lazyHooks other failing hooks =>
    cases built
    simp only [sourceOf?] at found
    split at found
    · cases found
      cases gives with
      | lazy ran member =>
        obtain ⟨_, _, _, rest⟩ := bind_eq_ok_iff.mp ran
        obtain ⟨_, _, _, made⟩ := bind_eq_ok_iff.mp rest
        obtain ⟨script, listed, _, _, own⟩ := exists_of_mem_right (forall₂_of_mapM_ok made) member
        rw [script_of_build own]
        exact steady.2 script listed
    · cases found

/-- Two builds of a script fail alike, or give plugins that are the same. -/
theorem akin_build {script : PluginScript} (held : scripts script) (steady : Steady scripts) (before begun : Journal) :
    Akin AnyJournals (Registered scripts) (script.build before) (script.build begun) := by
  cases script with
  | languages => exact .ok .languages trivial
  | scripted name parts =>
    refine (akin_declarations (steady name parts held) name before begun).bind ?_
    intro first second after last built mended _
    have all : ∀ declaration ∈ first, SteadyDeclaration scripts declaration := by
      intro declaration declared
      obtain ⟨part, member, _, _, made⟩ := exists_of_mem_right (forall₂_of_mapM_ok built) declared
      exact steadyDeclaration_of_build (steady name parts held part member) made
    exact .ok (.further ⟨⟨name, first⟩, ⟨name, second⟩, rfl, rfl, ⟨rfl, mended⟩, all⟩) trivial

theorem registered_of_build {script : PluginScript} (held : scripts script) (steady : Steady scripts)
    {before after : Journal} {plugin : Plugin kit} (built : script.build before = .ok plugin after) :
    Registered scripts plugin plugin := by
  have again := akin_build held steady before before
  rw [built] at again
  cases again with
  | ok same => exact same

/-- The hooks of such plugins register steady scripts only. -/
theorem steadyHook_of_rebuilt {plugin other : Plugin kit} (rebuilt : Rebuilt scripts plugin other) {hook : ScriptHook}
    (provides : ProvidesHook plugin hook) : SteadyHook scripts hook.script := by
  obtain ⟨first, second, rfl, rfl, _, steady⟩ := rebuilt
  obtain ⟨hooks, ⟨treeFormat, deferred, before, after, held, gives⟩, member⟩ := provides
  have own : ownHooks treeFormat first.plugin before = .ok hooks after := by
    rw [ownHooks, held]
    exact gives
  rw [ownHooks_plugin] at own
  obtain ⟨source, among, given⟩ := gives_of_supplied (supplyAll_eq_ok_iff.mp own) member
  obtain ⟨declaration, declared, found⟩ := List.mem_filterMap.mp among
  exact steady declaration declared treeFormat source found hook given

end

/-! ## Calls -/

theorem matches_recordCall (entry : Entry) :
    Matches (forgetful Journal).WorldMended (recordCall entry) (recordCall entry) :=
  fun _ _ _ => .ok (worldMended_forgetful _ _)

section
variable {related : Plugin kit → Plugin kit → Prop} {inner : Capabilities kit} (memoryless : Memoryless inner related)
  {first second : Options kit} (alike : Alike related first second)

include memoryless in
theorem names_eq {plugins others : List (Plugin kit)} (all : List.Forall₂ related plugins others) :
    plugins.map Plugin.name = others.map Plugin.name := by
  induction all with
  | nil => rfl
  | cons same _ ih => rw [List.map_cons, List.map_cons, (memoryless.resolves same).name, ih]

include alike

theorem text_run_eq : TextAction.run first = TextAction.run second := by
  funext text action
  cases action with
  | appendSetting key => rw [TextAction.run, TextAction.run, settingText, settingText, alike.settings]
  | appendState => rw [TextAction.run, TextAction.run, mark, mark, alike.context, alike.committed]
  | _ => rfl

theorem matches_scriptPreprocess (parser : ScriptParser) (raw : String) :
    Matches (forgetful Journal).WorldMended (preprocess parser raw first) (preprocess parser raw second) := by
  cases parser with
  | language => exact matches_pure raw
  | scripted label script =>
    cases found : script.preprocess with
    | none =>
      simp only [preprocess, found]
      exact matches_pure raw
    | some actions =>
      simp only [preprocess, found, text_run_eq alike]
      exact (matches_recordCall _).bind fun _ => matches_outcome _

include memoryless

/-- What a script sees of options that are alike is the same. -/
theorem describe_eq : describe first = describe second := by
  rw [describe, describe, Registry.names, Registry.names, alike.context, alike.committed, alike.settings,
    names_eq memoryless alike.plugins]

theorem tree_run_eq : TreeAction.run first = TreeAction.run second := by
  funext edit action
  cases action with
  | setState key => rw [TreeAction.run, TreeAction.run, describe_eq memoryless alike]
  | setCommitted key => rw [TreeAction.run, TreeAction.run, alike.committed]
  | _ => rfl

theorem matches_parseAfter (separator parser : String) (frame : Except Fault FrameSettings) (text : String) :
    Matches (forgetful Journal).WorldMended (parseAfter inner separator parser frame text first)
      (parseAfter inner separator parser frame text second) := by
  unfold parseAfter
  cases Text.splitAtFirst separator.toList text.toList with
  | none => exact matches_pure _
  | some parts =>
    obtain ⟨head, rest⟩ := parts
    refine (matches_outcome frame).bind fun frame before begun _ => ?_
    have embedded := akin_parseOn memoryless alike.toAbreast ⟨frame⟩ (.ofList rest) parser before begun
    refine agree_iff_akin.mpr (embedded.bind ?_)
    rintro ⟨parsed, own⟩ ⟨_, other⟩ after last _ ⟨rfl, same⟩ worlds
    -- The tree shows the committed text and the context in which the embedded options ended.
    have committed : own.committed = other.committed := same.committed
    have context : own.context = other.context := same.context
    refine .ok ?_ worlds
    rw [committed, context]

theorem matches_parseScript (script : ParseScript) (text : String) :
    Matches (forgetful Journal).WorldMended (script.run inner text first) (script.run inner text second) := by
  cases script with
  | echo | const => exact matches_pure _
  | fail => exact matches_throw _
  | state =>
    rw [ParseScript.run, ParseScript.run, describe_eq memoryless alike]
    exact matches_pure _
  | reject needle message range =>
    cases found : Text.splitAtFirst needle.toList text.toList with
    | none =>
      simp only [ParseScript.run, found]
      exact matches_pure _
    | some parts =>
      simp only [ParseScript.run, found]
      exact matches_throw _
  | embed separator parser frame => exact matches_parseAfter memoryless alike separator parser frame text

theorem matches_scriptParse (parser : ScriptParser) (text : String) :
    Matches (forgetful Journal).WorldMended (parse inner parser text first) (parse inner parser text second) := by
  cases parser with
  | language language => exact matches_language memoryless alike.toAbreast language text
  | scripted label script =>
    exact (matches_recordCall _).bind fun _ => matches_parseScript memoryless alike script.parse text

end

/-! ## What hooks do to the options -/

theorem akin_ofState {α β : Type} {related : α → β → Prop} {build : Build α} {other : Build β}
    {before begun : World Journal} (akin : Akin AnyJournals related (build before.state) (other begun.state)) :
    Akin (forgetful Journal).WorldMended related (Action.ofState build before) (Action.ofState other begun) := by
  unfold Action.ofState
  generalize build before.state = made at akin ⊢
  generalize other begun.state = matched at akin ⊢
  cases akin with
  | ok values => exact .ok values (worldMended_forgetful _ _)
  | error => exact .error (worldMended_forgetful _ _)

section
variable {scripts : PluginScript → Prop} (steady : Steady scripts)
include steady

theorem akin_registerScript {script : PluginScript} (held : scripts script) {registry other : Registry kit}
    (plugins : List.Forall₂ (Registered scripts) registry.plugins other.plugins) (before begun : World Journal) :
    Akin (forgetful Journal).WorldMended
      (fun made twin => List.Forall₂ (Registered scripts) made.plugins twin.plugins)
      (registerScript registry script before) (registerScript other script begun) := by
  refine (akin_ofState (akin_build held steady before.state begun.state)).bind ?_
  rintro plugin twin after last _ same _
  exact .ok (List.rel_append plugins (.cons same .nil)) (worldMended_forgetful _ _)

theorem matches_optionAction_of_among {action : OptionAction PluginScript} (among : action.Among scripts) :
    Matches (Statelessness.Level (Registered scripts)) action.run action.run := by
  intro before begun level
  cases action with
  | register script =>
    have registered := akin_registerScript steady among level.plugins before.world begun.world
    refine agree_iff_akin.mpr ((registered.ofAction fun _ _ _ => level).bind ?_)
    rintro registry other after last _ plugins level
    exact .ok rfl { level with plugins }
  | setSetting key value => exact .ok { level with settings := congrArg (·.insert key value) level.settings }
  | eraseSetting key => exact .ok { level with settings := congrArg (·.erase key) level.settings }
  | setParser name => exact .ok { level with context := congrArg ({ · with parser := name }) level.context }
  | setParent name => exact .ok { level with context := congrArg ({ · with parent := name }) level.context }
  | setCommitted => exact .ok { level with committed := rfl }
  | appendCommitted more => exact .ok { level with committed := congrArg (·.map (· ++ more)) level.committed }
  | clearPlugins => exact .ok { level with plugins := .nil }

theorem matches_hookActions {α β : Type} {act : Options kit → β → α → Except Fault β}
    (reads : ∀ {first second : Options kit}, Alike (Registered scripts) first second → act first = act second)
    {actions : List (HookAction PluginScript α)} (among : ∀ action ∈ actions, action.Among scripts) (given : β) :
    Matches (Statelessness.Level (Registered scripts)) (actions.foldlM (HookAction.run act) given)
      (actions.foldlM (HookAction.run act) given) := by
  refine .foldlM (fun action member made => ?_) given
  cases action with
  | own action =>
    intro before begun level
    have same : Matches (forgetful Journal).WorldMended (Action.ofExcept (act before.options made action))
        (Action.ofExcept (act begun.options made action)) := by
      rw [reads level]
      exact matches_outcome _
    rw [HookAction.run]
    exact agree_iff_akin.mpr (akin_ofAction level same)
  | options action => exact (matches_optionAction_of_among steady (among _ member)).bind fun _ => matches_pure made

omit steady in
theorem matches_runCall (related : Plugin kit → Plugin kit → Prop) (entry : Entry) :
    Matches (Statelessness.Level related) (Run.ofAction fun _ => recordCall entry)
      (Run.ofAction fun _ => recordCall entry) :=
  fun _ _ level => agree_iff_akin.mpr (akin_ofAction level (matches_recordCall entry))

variable {inner : Capabilities kit} (memoryless : Memoryless inner (Registered scripts)) {hook : ScriptHook}
  (own : SteadyHook scripts hook.script)
include own

theorem matches_beforeParse (text : String) :
    Matches (Statelessness.Level (Registered scripts)) (beforeParse hook text) (beforeParse hook text) := by
  cases held : hook.script.before with
  | none =>
    simp only [beforeParse, held]
    exact matches_pure text
  | some actions =>
    simp only [beforeParse, held]
    exact (matches_runCall _ _).bind fun _ => matches_hookActions steady text_run_eq (own.before actions held) text

include memoryless

theorem matches_afterParse (tree : Tree) :
    Matches (Statelessness.Level (Registered scripts)) (afterParse hook tree) (afterParse hook tree) := by
  cases held : hook.script.after with
  | none =>
    simp only [afterParse, held]
    exact matches_pure _
  | some actions =>
    simp only [afterParse, held]
    exact (matches_runCall _ _).bind fun _ =>
      matches_hookActions steady (tree_run_eq memoryless) (own.after actions held) _

omit own memoryless

/-- Plugins of steady scripts keep nothing but in the options. -/
theorem guests_of_steady : Guests rules ScriptParser.language ScriptPrinter.language (Rebuilt scripts) where
  resolves := by
    rintro plugin other ⟨first, second, rfl, rfl, mended, _⟩
    exact mended.plugin
  calls memoryless _ _ rebuilt :=
    { preprocess := fun _ raw _ _ alike => matches_scriptPreprocess alike _ raw
      parse := fun _ text _ _ alike => matches_scriptParse memoryless alike _ text
      beforeParse := fun provides text => matches_beforeParse steady (steadyHook_of_rebuilt rebuilt provides) text
      afterParse := fun provides tree =>
        matches_afterParse steady memoryless (steadyHook_of_rebuilt rebuilt provides) tree }

end

theorem speaks_rules : Speaks rules ScriptParser.language where
  preprocess _ _ _ _ := rfl
  parse _ _ := rfl

end Polyglot.Script
