import Polyglot.Dispatch
import Polyglot.Proofs.Stages

/-!
# Hooks in sequence

A stage runs the hooks of a list that declare it and whose scope applies to a context, whatever they make of the
options. The hooks of two lists are dispatched one list after the other, and a stage fails as the first of its
hooks that fails: with the fault of this hook, and in what it left (`dispatch_of_joined`).
-/

namespace Polyglot.Dispatch

open Outcome

variable {κ : Kit} {α β : Type}

/-- Whether a hook runs at a stage when it is selected by the context. -/
def runs (profile : Profile κ) (stage : Stage) (context : Context) (hook : κ.Hook) : Bool :=
  profile.declares hook stage && (profile.hookScope hook).applies context

theorem declaring_inScope (profile : Profile κ) (stage : Stage) (context : Context) (hooks : List κ.Hook) :
    declaring profile stage (inScope profile context hooks) = hooks.filter (runs profile stage context) :=
  List.filter_filter ..

/-- The hooks of a list are dispatched at a stage in sequence: each that runs is given what the hook before it
    made, and the first whose call fails ends the stage. -/
structure Sequential (profile : Profile κ) (stage : Stage) (context : Context) (call : κ.Hook → α → Run κ β)
    (step : α → κ.Hook → Run κ α) (dispatch : List κ.Hook → α → Run κ α) : Prop where
  single (hook : κ.Hook) (given : α) :
    dispatch [hook] given = if runs profile stage context hook then step given hook else pure given
  append (first second : List κ.Hook) (given : α) (before : Invocation κ) :
    dispatch (first ++ second) given before =
      match dispatch first given before with
      | .ok made middle => dispatch second made middle
      | .error fault after => .error fault after
  eq_error_iff (hooks : List κ.Hook) (given : α) (before after : Invocation κ) (fault : Fault) :
    dispatch hooks given before = .error fault after ↔
      ∃ k hook made middle, (hooks.filter (runs profile stage context))[k]? = some hook ∧
        dispatch ((hooks.filter (runs profile stage context)).take k) given before = .ok made middle ∧
        call hook made (middle.reported (.running (profile.hookName hook) stage)) = .error fault after

section
variable {profile : Profile κ} {stage : Stage} {context : Context} {call : κ.Hook → α → Run κ β}
  {step : α → κ.Hook → Run κ α}

theorem filter_take_runs (hooks : List κ.Hook) (count : Nat) :
    ((hooks.filter (runs profile stage context)).take count).filter (runs profile stage context) =
      (hooks.filter (runs profile stage context)).take count :=
  List.filter_eq_self.mpr fun _ member => (List.mem_filter.mp (List.mem_of_mem_take member)).2

theorem foldlM_filter_singleton (hook : κ.Hook) (given : α) :
    ([hook].filter (runs profile stage context)).foldlM step given =
      if runs profile stage context hook then step given hook else pure given := by
  by_cases taking : runs profile stage context hook
  · rw [List.filter_cons_of_pos taking, List.filter_nil, List.foldlM_cons, if_pos taking]
    exact bind_pure _
  · rw [List.filter_cons_of_neg taking, List.filter_nil, if_neg taking]
    rfl

/-- A stage that repeats a step over its hooks dispatches them in sequence when the step fails just as the call does. -/
theorem sequential_of_foldlM
    (fails : ∀ hook given before after fault, step given hook before = .error fault after ↔
      call hook given (before.reported (.running (profile.hookName hook) stage)) = .error fault after) :
    Sequential profile stage context call step fun hooks =>
      (declaring profile stage (inScope profile context hooks)).foldlM step where
  single hook given := by
    rw [declaring_inScope, foldlM_filter_singleton]
  append first second given before := by
    simp only [declaring_inScope, List.filter_append, List.foldlM_append]
    cases outcome : (first.filter (runs profile stage context)).foldlM step given before with
    | ok made middle => exact bind_eq_of_ok outcome _
    | error fault after => exact bind_eq_of_error outcome _
  eq_error_iff hooks given before after fault := by
    simp only [declaring_inScope, filter_take_runs]
    rw [foldlM_eq_error_iff]
    -- The hooks before the one that fails are as many as its place among those that run.
    constructor
    · rintro ⟨earlier, hook, later, made, middle, split, passed, failed⟩
      refine ⟨earlier.length, hook, made, middle, ?_, ?_, (fails ..).mp failed⟩
      · rw [split, List.getElem?_append_right (Nat.le_refl _), Nat.sub_self, List.getElem?_cons_zero]
      · rw [split, List.take_left]
        exact passed
    · rintro ⟨k, hook, made, middle, found, passed, failed⟩
      have split := (List.take_append_drop k (hooks.filter (runs profile stage context))).symm
      rw [List.drop_eq_getElem?_toList_append, found] at split
      exact ⟨_, hook, _, made, middle, split, passed, (fails ..).mpr failed⟩

end

variable (capabilities : Capabilities κ)

theorem stepBefore_eq_error_iff (hook : κ.Hook) (text : String) (before after : Invocation κ) (fault : Fault) :
    stepBefore capabilities text hook before = .error fault after ↔
      capabilities.beforeParse hook text (before.reported (.running (capabilities.hookName hook) .beforeParse)) =
        .error fault after := by
  rw [stepBefore, bind_eq_of_ok (Pipeline.report_eq ..)]

/-- Once a hook has given its edit, nothing more can fail. -/
theorem stepAfter_eq_error_iff (hook : κ.Hook) (tree : Tree) (before after : Invocation κ) (fault : Fault) :
    stepAfter capabilities tree hook before = .error fault after ↔
      capabilities.afterParse hook tree (before.reported (.running (capabilities.hookName hook) .afterParse)) =
        .error fault after := by
  rw [stepAfter, bind_eq_of_ok (Pipeline.report_eq ..), bind_eq_error_iff]
  constructor
  · rintro (failed | ⟨edit, middle, _, never⟩)
    · exact failed
    · cases edit with
      | mk tree replacement => cases replacement <;> cases never
  · exact .inl

/-- The hooks of two lists that take part are those of the first and those of the second, so that their numbers add up.
    At both stages they are dispatched in sequence: first those of the first list, then, unless one of these failed,
    those of the second on the text or tree and the options that the first left. Where the call of a hook fails, the
    hooks before it made what it was given, and its fault and what it left are those of the stage. -/
theorem dispatch_of_joined (context : Context) :
    (∀ first second : List κ.Hook,
      (inScope capabilities.toProfile context (first ++ second)).length =
        (inScope capabilities.toProfile context first).length +
          (inScope capabilities.toProfile context second).length) ∧
    Sequential capabilities.toProfile .beforeParse context capabilities.beforeParse (stepBefore capabilities)
      (fun hooks => beforeParse capabilities (inScope capabilities.toProfile context hooks)) ∧
    Sequential capabilities.toProfile .afterParse context capabilities.afterParse (stepAfter capabilities)
      (fun hooks => afterParse capabilities (inScope capabilities.toProfile context hooks)) := by
  refine ⟨fun first second => ?_, ?_, ?_⟩
  · rw [inScope_append, List.length_append]
  · exact sequential_of_foldlM (stepBefore_eq_error_iff capabilities)
  · exact sequential_of_foldlM (stepAfter_eq_error_iff capabilities)

end Polyglot.Dispatch
