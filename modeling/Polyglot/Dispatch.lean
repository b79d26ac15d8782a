import Polyglot.Capabilities

/-!
# Dispatch

The hooks that take part in a parse are selected once, by the context at its
beginning. At each stage those that declare it run one after another: before the
parse each is given the text that the hook before it made, after the parse the
tree. The first failure ends the stage.
-/

namespace Polyglot.Dispatch

variable {κ : Kit}

/-- The hooks whose scope applies to a context. -/
def inScope (profile : Profile κ) (context : Context) (hooks : List κ.Hook) : List κ.Hook :=
  hooks.filter fun hook => (profile.hookScope hook).applies context

/-- What selecting hooks reports: the hooks that take no part, and the count of the others. -/
def selectionEvents (profile : Profile κ) (context : Context) (hooks : List κ.Hook) : List Event :=
  (hooks.filter fun hook => !(profile.hookScope hook).applies context).map
      (fun hook => .skipped (profile.hookName hook) (profile.hookScope hook) context.parser) ++
    [.selected context.parser (inScope profile context hooks).length hooks.length]

/-- The hooks that take part in a parse that begins in a context. -/
def select (profile : Profile κ) (context : Context) (hooks : List κ.Hook) :
    Action κ.State (List κ.Hook) := do
  modify fun world => world.report (selectionEvents profile context hooks)
  pure (inScope profile context hooks)

/-- The hooks that are to run at a stage. -/
def declaring (profile : Profile κ) (stage : Stage) (hooks : List κ.Hook) : List κ.Hook :=
  hooks.filter fun hook => profile.declares hook stage

/-- Hands a text to a hook. -/
def stepBefore (capabilities : Capabilities κ) (text : String) (hook : κ.Hook) : Run κ String := do
  Run.report (.running (capabilities.hookName hook) .beforeParse)
  capabilities.beforeParse hook text

/-- Hands a tree to a hook, which may edit it or put another in its place. -/
def stepAfter (capabilities : Capabilities κ) (tree : Tree) (hook : κ.Hook) : Run κ Tree := do
  Run.report (.running (capabilities.hookName hook) .afterParse)
  let edit ← capabilities.afterParse hook tree
  match edit.replacement with
  | none => pure edit.tree
  | some replacement =>
    Run.report (.replaced (capabilities.hookName hook))
    pure replacement

/-- The stage before the parse. -/
def beforeParse (capabilities : Capabilities κ) (hooks : List κ.Hook) (text : String) : Run κ String :=
  (declaring capabilities.toProfile .beforeParse hooks).foldlM (stepBefore capabilities) text

/-- The stage after the parse. -/
def afterParse (capabilities : Capabilities κ) (hooks : List κ.Hook) (tree : Tree) : Run κ Tree :=
  (declaring capabilities.toProfile .afterParse hooks).foldlM (stepAfter capabilities) tree

theorem inScope_append (profile : Profile κ) (context : Context) (first second : List κ.Hook) :
    inScope profile context (first ++ second) =
      inScope profile context first ++ inScope profile context second := by
  simp [inScope]

theorem declaring_append (profile : Profile κ) (stage : Stage) (first second : List κ.Hook) :
    declaring profile stage (first ++ second) =
      declaring profile stage first ++ declaring profile stage second := by
  simp [declaring]

theorem afterParse_append (capabilities : Capabilities κ) (first second : List κ.Hook) (tree : Tree) :
    afterParse capabilities (first ++ second) tree =
      afterParse capabilities first tree >>= afterParse capabilities second := by
  simp only [afterParse, declaring_append, List.foldlM_append]
  rfl

end Polyglot.Dispatch
