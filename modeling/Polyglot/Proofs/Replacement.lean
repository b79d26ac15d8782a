import Mathlib.Data.List.Forall2
import Polyglot.Proofs.Abreast
import Polyglot.Proofs.Sequence
import Polyglot.Script.Rules

/-!
# Trees put in place of others

A hook may edit the tree that it is given or give another to take its place. It makes no difference to what a dispatch
ends in whether a hook gives a tree, or puts this tree where the other was and gives none (`Assigns`): two
lists of hooks that differ so in any places end alike but for the events on record (`afterParseIn_of_assigned`).
-/

namespace Polyglot

open Outcome

/-! ## What is not on record -/

/-- Worlds that differ at most in the events on record. -/
def World.ButForEvents {σ : Type} (plain other : World σ) : Prop := ∃ trace, other = { plain with trace }

/-- Invocations that differ at most in the events on record. -/
def Invocation.ButForEvents {κ : Kit} (plain other : Invocation κ) : Prop :=
  ∃ trace, other = { plain with world := { plain.world with trace } }

section
variable {κ : Kit} {σ α : Type}

theorem lenient_butForEvents : Pipeline.Lenient (Invocation.ButForEvents (κ := κ)) where
  report event other := by
    rintro before _ ⟨trace, rfl⟩
    exact .ok ⟨_, rfl⟩
  commit text := by
    rintro before _ ⟨trace, rfl⟩
    exact .ok ⟨_, rfl⟩

theorem matches_ofState (action : EStateM Fault σ α) :
    Matches World.ButForEvents (Action.ofState action) (Action.ofState action) := by
  rintro before _ ⟨trace, rfl⟩
  unfold Action.ofState
  cases action before.state with
  | ok value state => exact .ok ⟨_, rfl⟩
  | error fault state => exact .error ⟨_, rfl⟩

theorem matches_report (event other : Event) :
    Matches (World.ButForEvents (σ := σ)) (Action.report event) (Action.report other) := by
  rintro before _ ⟨trace, rfl⟩
  exact .ok ⟨_, rfl⟩

theorem matches_ofAction {action : Options κ → Action κ.State α}
    (same : ∀ options, Matches World.ButForEvents (action options) (action options)) :
    Matches Invocation.ButForEvents (Run.ofAction action) (Run.ofAction action) := by
  rintro before _ ⟨trace, rfl⟩
  refine agree_iff_akin.mpr (Akin.ofAction (agree_iff_akin.mp (same _ _ _ ⟨trace, rfl⟩)) ?_)
  rintro world _ ⟨trace, rfl⟩
  exact ⟨trace, rfl⟩

theorem matches_modifyOptions (change : Options κ → Options κ) :
    Matches Invocation.ButForEvents (Run.modifyOptions change) (Run.modifyOptions change) := by
  rintro before _ ⟨trace, rfl⟩
  exact .ok ⟨_, rfl⟩

end

/-! ## Putting a tree in place of another -/

/-- The edit without a tree that is to take the place of the edited one: this tree is there already. -/
def Edit.inPlace (edit : Edit) : Edit := { tree := edit.replacement.getD edit.tree }

namespace Dispatch

variable {κ : Kit} {capabilities : Capabilities κ}

/-- The stage after a parse that began in a context, with those of the hooks that take part. -/
def afterParseIn (capabilities : Capabilities κ) (context : Context) (hooks : List κ.Hook) (tree : Tree) :
    Run κ Tree :=
  afterParse capabilities (inScope capabilities.toProfile context hooks) tree

/-- What the hook makes of a tree does not depend on the events on record, which no hook is given. -/
def Heedless (capabilities : Capabilities κ) (hook : κ.Hook) : Prop :=
  ∀ tree, Matches Invocation.ButForEvents (capabilities.afterParse hook tree) (capabilities.afterParse hook tree)

/-- Another hook for the same parses that does what the hook does, but where this one gives a tree to take the place
    of the edited one, the other puts this tree there. -/
structure Assigns (capabilities : Capabilities κ) (hook other : κ.Hook) : Prop where
  scope : capabilities.hookScope other = capabilities.hookScope hook
  declares : capabilities.declares other .afterParse = capabilities.declares hook .afterParse
  call (tree : Tree) :
    capabilities.afterParse other tree = do
      let edit ← capabilities.afterParse hook tree
      pure edit.inPlace

/-- A hook that runs after parses of the context and puts each tree under a key. -/
structure Wraps (capabilities : Capabilities κ) (context : Context) (key : String) (hook : κ.Hook) : Prop where
  runs : runs capabilities.toProfile .afterParse context hook
  call (tree : Tree) (before : Invocation κ) :
    ∃ edit after, capabilities.afterParse hook tree before = .ok edit after ∧ edit.inPlace.tree = .singleton key tree

theorem Assigns.runs_eq {hook other : κ.Hook} (assigns : Assigns capabilities hook other) (context : Context) :
    runs capabilities.toProfile .afterParse context other = runs capabilities.toProfile .afterParse context hook := by
  rw [runs, runs, assigns.scope, assigns.declares]

theorem Assigns.stepAfter {hook other : κ.Hook} (assigns : Assigns capabilities hook other)
    (heedless : Heedless capabilities hook) (tree : Tree) :
    Matches Invocation.ButForEvents (stepAfter capabilities tree hook) (stepAfter capabilities tree other) := by
  unfold Dispatch.stepAfter
  rw [assigns.call, bind_assoc]
  refine (lenient_butForEvents.report _ _).bind fun _ => (heedless tree).bind fun edit => ?_
  -- Only the report that a tree was replaced is missing on the other side.
  rintro before _ ⟨trace, rfl⟩
  cases edit with
  | mk edited replacement => cases replacement <;> exact .ok ⟨_, rfl⟩

theorem stepAfter_of_edit {hook : κ.Hook} {tree : Tree} {before after : Invocation κ} {edit : Edit}
    (called : capabilities.afterParse hook tree
      (before.reported (.running (capabilities.hookName hook) .afterParse)) = .ok edit after) :
    stepAfter capabilities tree hook before =
      .ok edit.inPlace.tree
        (if edit.replacement.isSome then after.reported (.replaced (capabilities.hookName hook)) else after) := by
  rw [stepAfter, bind_eq_of_ok (Pipeline.report_eq ..), bind_eq_of_ok called]
  cases edit with
  | mk edited replacement => cases replacement <;> rfl

/-! ## Dispatches -/

variable {context : Context}

theorem afterParseIn_append (first second : List κ.Hook) (tree : Tree) :
    afterParseIn capabilities context (first ++ second) tree =
      afterParseIn capabilities context first tree >>= afterParseIn capabilities context second := by
  rw [afterParseIn, inScope_append, afterParse_append]
  rfl

theorem afterParseIn_cons (hook : κ.Hook) (rest : List κ.Hook) (tree : Tree) :
    afterParseIn capabilities context (hook :: rest) tree =
      (if runs capabilities.toProfile .afterParse context hook then stepAfter capabilities tree hook
        else pure tree) >>= afterParseIn capabilities context rest := by
  rw [← List.singleton_append, afterParseIn_append, afterParseIn, afterParse, declaring_inScope,
    foldlM_filter_singleton]

theorem afterParseIn_cons_of_runs {hook : κ.Hook} (taking : runs capabilities.toProfile .afterParse context hook)
    (rest : List κ.Hook) (tree : Tree) :
    afterParseIn capabilities context (hook :: rest) tree =
      stepAfter capabilities tree hook >>= afterParseIn capabilities context rest := by
  rw [afterParseIn_cons, if_pos taking]

/-- Hooks of which any may put in place what their counterparts give. -/
def Assigned (capabilities : Capabilities κ) : List κ.Hook → List κ.Hook → Prop :=
  List.Forall₂ fun hook other => other = hook ∨ Assigns capabilities hook other

theorem Assigned.matches {hooks others : List κ.Hook} (assigned : Assigned capabilities hooks others)
    (heedless : ∀ hook ∈ hooks, Heedless capabilities hook) (tree : Tree) :
    Matches Invocation.ButForEvents (afterParseIn capabilities context hooks tree)
      (afterParseIn capabilities context others tree) := by
  induction assigned generalizing tree with
  | nil => exact matches_pure tree
  | @cons hook other rest more same _ ih =>
    -- Either both hooks run or none of the two.
    have first : Matches Invocation.ButForEvents
        (if runs capabilities.toProfile .afterParse context hook then stepAfter capabilities tree hook else pure tree)
        (if runs capabilities.toProfile .afterParse context other then stepAfter capabilities tree other
          else pure tree) := by
      have attentive := heedless hook List.mem_cons_self
      obtain rfl | assigns := same
      · split
        · exact lenient_butForEvents.stepAfter (attentive tree)
        · exact matches_pure tree
      · rw [assigns.runs_eq]
        split
        · exact assigns.stepAfter attentive tree
        · exact matches_pure tree
    rw [afterParseIn_cons, afterParseIn_cons]
    exact first.bind (ih fun hook member => heedless hook (List.mem_cons_of_mem _ member))

/-- After a hook that gives a tree, its edits of the old tree are gone and the hooks after it are given the new one. -/
theorem afterParseIn_of_replacement {hook : κ.Hook} (taking : runs capabilities.toProfile .afterParse context hook)
    {tree edited replacement : Tree} {before after : Invocation κ}
    (called : capabilities.afterParse hook tree (before.reported (.running (capabilities.hookName hook) .afterParse)) =
      .ok ⟨edited, some replacement⟩ after) (rest : List κ.Hook) :
    afterParseIn capabilities context (hook :: rest) tree before =
      afterParseIn capabilities context rest replacement
        (after.reported (.replaced (capabilities.hookName hook))) := by
  rw [afterParseIn_cons_of_runs taking, bind_eq_of_ok (stepAfter_of_edit called)]
  rfl

theorem afterParseIn_of_wrappers {keys : List String} {wrappers : List κ.Hook}
    (wraps : List.Forall₂ (Wraps capabilities context) keys wrappers) (tree : Tree) (before : Invocation κ) :
    ∃ after, afterParseIn capabilities context wrappers tree before =
      .ok (keys.foldl (fun wrapped key => .singleton key wrapped) tree) after := by
  induction wraps generalizing tree before with
  | nil => exact ⟨before, rfl⟩
  | @cons key hook keys rest wraps _ ih =>
    obtain ⟨edit, after, called, wrapped⟩ := wraps.call tree _
    rw [afterParseIn_cons_of_runs wraps.runs, bind_eq_of_ok (stepAfter_of_edit called), wrapped]
    exact ih _ _

/-- Hooks that put in place what their counterparts give, in any places of a list, make the same tree or fail with
    the same fault, and leave the same options. Where a hook of the list gives a tree, what it did to the tree that it
    was given is gone, and the hooks after it work on the tree that it gave. Hooks that wrap a tree under a key each
    leave it under their keys, the last outermost. -/
theorem afterParseIn_of_assigned {hooks others : List κ.Hook} {keys : List String} {wrappers : List κ.Hook}
    (heedless : ∀ hook ∈ hooks, Heedless capabilities hook) (assigned : Assigned capabilities hooks others)
    (wraps : List.Forall₂ (Wraps capabilities context) keys wrappers) (tree : Tree) (before : Invocation κ) :
    Agree Invocation.ButForEvents (afterParseIn capabilities context hooks tree before)
      (afterParseIn capabilities context others tree before) ∧
    (∀ earlier hook later given middle edited replacement after,
      hooks = earlier ++ hook :: later → runs capabilities.toProfile .afterParse context hook →
      afterParseIn capabilities context earlier tree before = .ok given middle →
      capabilities.afterParse hook given (middle.reported (.running (capabilities.hookName hook) .afterParse)) =
        .ok ⟨edited, some replacement⟩ after →
      afterParseIn capabilities context hooks tree before =
        afterParseIn capabilities context later replacement
          (after.reported (.replaced (capabilities.hookName hook)))) ∧
    ∃ after, afterParseIn capabilities context wrappers tree before =
      .ok (keys.foldl (fun wrapped key => .singleton key wrapped) tree) after := by
  refine ⟨?_, ?_, afterParseIn_of_wrappers wraps tree before⟩
  · exact assigned.matches heedless tree before before ⟨_, rfl⟩
  · rintro earlier hook later given middle edited replacement after rfl taking passed called
    rw [afterParseIn_append, bind_eq_of_ok passed]
    exact afterParseIn_of_replacement taking called later

end Dispatch

/-! ## Scripted hooks -/

namespace Script

open Dispatch

theorem matches_optionAction (action : OptionAction PluginScript) :
    Matches Invocation.ButForEvents action.run action.run := by
  unfold OptionAction.run
  cases action with
  | register plugin =>
    refine Matches.bind (matches_ofAction fun options => ?_) fun registry => matches_modifyOptions _
    exact (matches_ofState _).bind fun built => (matches_report _ _).bind fun _ => matches_pure _
  | setSetting | eraseSetting | setParser | setParent | setCommitted | appendCommitted | clearPlugins =>
    exact matches_modifyOptions _

/-- No scripted hook reads what is on record. -/
theorem heedless (hook : ScriptHook) : Heedless capabilities hook := by
  intro tree
  show Matches Invocation.ButForEvents (Script.afterParse hook tree) (Script.afterParse hook tree)
  unfold Script.afterParse
  cases hook.script.after with
  | none => exact matches_pure _
  | some actions =>
    refine (matches_ofAction fun _ => matches_ofState _).bind fun _ => .foldlM (fun action _ edit => ?_) _
    unfold HookAction.run
    cases action with
    | own action => exact matches_ofAction fun options => matches_outcome _
    | options action => exact (matches_optionAction action).bind fun _ => matches_pure edit

def acting (actions : List (HookAction PluginScript TreeAction)) : ScriptHook :=
  ⟨.closure "acting" (.ok .any) none (some actions), .any⟩

/-- A hook that edits the tree, commits a text, and gives another tree. -/
def giving : ScriptHook :=
  acting [.own (.setKey "k" .null), .options (.setCommitted (some "x")), .own (.return (.text "a"))]

/-- A hook that does the same, but puts the other tree in place. -/
def putting : ScriptHook :=
  acting [.own (.setKey "k" .null), .options (.setCommitted (some "x")), .own (.set "" (.text "a"))]

def exclaiming : ScriptHook := acting [.own (.appendAt "" "!")]

def wrapping (key : String) : ScriptHook := acting [.own (.wrap key)]

theorem assigns_putting : Assigns capabilities giving putting where
  scope := rfl
  declares := rfl
  call _ := rfl

theorem wraps_wrapping (context : Context) (key : String) : Wraps capabilities context key (wrapping key) where
  runs := rfl
  call _ _ := ⟨_, _, rfl, rfl⟩

/-- The options and the world that a stage begins in. -/
def begun : Invocation kit := ⟨.new {} "words", { state := {} }⟩

/-- Either hook makes the same of a tree, which the next hook goes on with; and two hooks wrap a tree in turn. -/
theorem afterParseIn_of_giving :
    (∀ hook ∈ [giving, exclaiming], Heedless capabilities hook) ∧
    Assigned capabilities [giving, exclaiming] [putting, exclaiming] ∧
    List.Forall₂ (Wraps capabilities (.top "words")) ["b", "c"] [wrapping "b", wrapping "c"] ∧
    (∃ after, afterParseIn capabilities (.top "words") [putting, exclaiming] .null begun =
      .ok (.text "a!") after ∧ after.options.committed = some "x") ∧
    ∃ after, afterParseIn capabilities (.top "words") [wrapping "b", wrapping "c"] .null begun =
      .ok (.singleton "c" (.singleton "b" .null)) after := by
  have unheeding : ∀ hook ∈ [giving, exclaiming], Heedless capabilities hook := fun hook _ => heedless hook
  have assigned : Assigned capabilities [giving, exclaiming] [putting, exclaiming] :=
    .cons (.inr assigns_putting) (.cons (.inl rfl) .nil)
  have wraps : List.Forall₂ (Wraps capabilities (.top "words")) ["b", "c"] [wrapping "b", wrapping "c"] :=
    .cons (wraps_wrapping _ "b") (.cons (wraps_wrapping _ "c") .nil)
  have given : ∃ after, afterParseIn capabilities (.top "words") [giving, exclaiming] .null begun =
      .ok (.text "a!") after ∧ after.options.committed = some "x" := ⟨_, rfl, rfl⟩
  obtain ⟨same, -, wrapped⟩ := afterParseIn_of_assigned unheeding assigned wraps .null begun
  refine ⟨unheeding, assigned, wraps, ?_, wrapped⟩
  obtain ⟨after, ended, committed⟩ := given
  rw [ended] at same
  generalize afterParseIn capabilities (.top "words") [putting, exclaiming] .null begun = other at same ⊢
  cases same with
  | ok states =>
    obtain ⟨trace, rfl⟩ := states
    exact ⟨_, rfl, committed⟩

end Script

end Polyglot
