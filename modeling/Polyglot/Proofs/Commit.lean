import Polyglot.Proofs.Courses

/-!
# The committed text

A parse itself writes the committed text of its options once, and only when its calls got as
far as its parser: it commits the text that the hooks before the parse made, whatever stands
there, and this is the text that the parser is given and that the parse answers with. What
becomes of the committed text before and afterwards is the work of hooks
(`committed_is_text_of_hooks`).
-/

namespace Polyglot.Pipeline

open Outcome

variable {κ : Kit}

/-- The calls of a plan that succeed: those of the hooks before the parser, the parser on the text
    that they made and with that text committed, and those of the hooks after it. -/
theorem calls_plan_split {capabilities : Capabilities κ} {plan : Plan κ} {text : String} {parsed : Parsed}
    {before after : Invocation κ}
    (calls : Calls capabilities (plan.calls capabilities.toProfile) (.source text) before (.parsed parsed) after) :
    ∃ handed tree world,
      Calls capabilities (plan.before capabilities.toProfile) (.source text) before (.source parsed.text) handed ∧
      capabilities.parse plan.parser parsed.text { handed.options with committed := some parsed.text } handed.world =
        .ok tree world ∧
      Calls capabilities (plan.after capabilities.toProfile) (.parsed ⟨parsed.text, tree⟩)
        ⟨{ handed.options with committed := some parsed.text }, world⟩ (.parsed parsed) after := by
  rw [Plan.calls_eq, calls_append_iff] at calls
  obtain ⟨_, handed, first, rest⟩ := calls
  obtain ⟨made, rfl, _⟩ := calls_before_iff.mp first
  obtain ⟨_, _, parses, others⟩ := calls_cons_iff.mp rest
  cases parses with
  | parse succeeded =>
    obtain ⟨_, same, _⟩ := calls_after_iff.mp others
    cases same
    exact ⟨handed, _, _, first, succeeded, others⟩

/-- Hooks that spare the committed text leave that of the parse as it was committed. -/
theorem committed_of_after_calls {capabilities : Capabilities κ} {plan : Plan κ} {text : String} {tree : Tree}
    {document : Document} {before after : Invocation κ}
    (calls : Calls capabilities (plan.after capabilities.toProfile) (.parsed ⟨text, tree⟩) before document after)
    (spares : ∀ hook ∈ plan.hooks, Spares capabilities Options.committed hook) :
    after.options.committed = before.options.committed := by
  obtain ⟨_, _, stage⟩ := calls_after_iff.mp calls
  exact (keeps_afterParse spares tree).of_ok stage

/-- The hooks before the parse that were called, the last of which failed, leave the committed text
    as it was when all of them spare it. -/
theorem committed_of_before_stops {capabilities : Capabilities κ} {earlier : List κ.Hook} {hook : κ.Hook}
    {text made : String} {before middle after : Invocation κ} {fault : Fault}
    (passed : Calls capabilities (earlier.map .before) (.source text) before (.source made) middle)
    (breaks : Breaks capabilities (.before hook) (.source made) middle fault after)
    (spares : ∀ other ∈ earlier ++ [hook], Spares capabilities Options.committed other) :
    after.options.committed = before.options.committed := by
  obtain ⟨_, same, stage⟩ := calls_before_iff.mp passed
  cases same
  have failed : (earlier ++ [hook]).foldlM (Dispatch.stepBefore capabilities) text before = .error fault after :=
    foldlM_eq_error_iff.mpr ⟨earlier, hook, [], made, middle, rfl, stage, breaks_before_iff.mp breaks⟩
  have keeps : Keeps (fun invocation => invocation.options.committed)
      ((earlier ++ [hook]).foldlM (Dispatch.stepBefore capabilities) text) :=
    .foldlM (fun other member given => keeps_stepBefore (spares other member) given) text
  exact keeps.of_error failed

/-- The text that a parse commits is the one that its hooks made of the preprocessed text. Its
    parser is given this text, sees it committed, and the parse answers with it; hooks after the
    parser may change what is committed, for each other, the printer and the caller, but not
    the answer. A parse that fails early leaves its options as they were; one that fails in a hook before
    the parser leaves what its hooks, up to that one, made of them; one that fails in its parser leaves
    the text of the parser committed. -/
theorem committed_is_text_of_hooks (pipeline : Pipeline) (capabilities : Capabilities κ) (raw : String)
    (entry : Invocation κ) :
    (∀ parsed after, pipeline.parse capabilities raw entry = .ok parsed after →
      ∃ plan text start handed tree world last,
        Opens capabilities raw entry plan text start ∧ start.options = entry.options ∧
        Calls capabilities (plan.before capabilities.toProfile) (.source text) start (.source parsed.text) handed ∧
        capabilities.parse plan.parser parsed.text { handed.options with committed := some parsed.text }
          handed.world = .ok tree world ∧
        Calls capabilities (plan.after capabilities.toProfile) (.parsed ⟨parsed.text, tree⟩)
          ⟨{ handed.options with committed := some parsed.text }, world⟩ (.parsed parsed) last ∧
        after.options = last.options ∧
        ((∀ hook ∈ plan.hooks, Spares capabilities Options.committed hook) →
          after.options.committed = some parsed.text) ∧
        pipeline.format capabilities raw entry =
          Run.ofAction (printOn capabilities (capabilities.treeFormat plan.parser) parsed.tree) after) ∧
    (∀ answer after, pipeline.parse capabilities raw entry = .error answer after →
      pipeline.format capabilities raw entry = .error answer after ∧
      ((Early capabilities raw entry answer after ∧ after.options = entry.options) ∨
        ∃ plan text start, Opens capabilities raw entry plan text start ∧ start.options = entry.options ∧
          ((∃ earlier hook later made middle,
              Dispatch.declaring capabilities.toProfile .beforeParse plan.hooks = earlier ++ hook :: later ∧
              Calls capabilities (earlier.map .before) (.source text) start (.source made) middle ∧
              Breaks capabilities (.before hook) (.source made) middle answer after ∧
              ((∀ other ∈ earlier ++ [hook], Spares capabilities Options.committed other) →
                after.options.committed = entry.options.committed)) ∨
            ∃ made handed,
              Calls capabilities (plan.before capabilities.toProfile) (.source text) start (.source made) handed ∧
              ((∃ fault world,
                  capabilities.parse plan.parser made { handed.options with committed := some made } handed.world =
                    .error fault world ∧
                  answer = fault.framed pipeline.frame raw ∧
                  after.options = { handed.options with committed := some made }) ∨
                ∃ tree world earlier hook later changed middle,
                  capabilities.parse plan.parser made { handed.options with committed := some made } handed.world =
                    .ok tree world ∧
                  Dispatch.declaring capabilities.toProfile .afterParse plan.hooks = earlier ++ hook :: later ∧
                  Calls capabilities (earlier.map .after) (.parsed ⟨made, tree⟩)
                    ⟨{ handed.options with committed := some made }, world⟩ (.parsed ⟨made, changed⟩) middle ∧
                  Breaks capabilities (.after hook) (.parsed ⟨made, changed⟩) middle answer after)))) := by
  refine ⟨fun parsed after succeeded => ?_, fun answer after failed => ⟨format_eq_error_of_parse failed, ?_⟩⟩
  · obtain ⟨plan, text, start, last, opens, calls, rfl⟩ := parse_eq_ok_iff_opens.mp succeeded
    obtain ⟨handed, tree, world, first, parses, others⟩ := calls_plan_split calls
    have proceeds := (parse_eq_of_opens opens pipeline).symm.trans succeeded
    have printing := (format_eq_of_opens opens pipeline).trans (bind_eq_of_ok proceeds _)
    exact ⟨plan, text, start, handed, tree, world, last, opens, options_of_opens opens, first, parses, others, rfl,
      committed_of_after_calls others, printing⟩
  · rcases parse_eq_error_iff_course.mp failed with early | ⟨plan, text, start, opens, stops⟩
    · exact .inl ⟨early, options_of_early early⟩
    · have begins := options_of_opens opens
      refine .inr ⟨plan, text, start, opens, begins, ?_⟩
      cases stops with
      | before split passed breaks =>
        refine .inl ⟨_, _, _, _, _, split, passed, breaks, fun spares => ?_⟩
        rw [committed_of_before_stops passed breaks spares, begins]
      | parser passed breaks =>
        obtain ⟨world, rejected, rfl⟩ := breaks_parse_iff.mp breaks
        exact .inr ⟨_, _, passed, .inl ⟨_, world, rejected, rfl, rfl⟩⟩
      | after passed parses split edited breaks =>
        cases parses with
        | parse accepted =>
          exact .inr ⟨_, _, passed, .inr ⟨_, _, _, _, _, _, _, accepted, split, edited, breaks⟩⟩

section
open Script

/-- A hook that commits a text of its own before the parse, and adds to the committed one after it. -/
def meddling : ScriptHook :=
  ⟨.closure "meddling" (.ok .any) (some [.options (.setCommitted (some "x")), .own (.append "!")])
    (some [.options (.appendCommitted "?")]), .any⟩

def meddled : Plugin kit := .ofDeclarations "p" [.parser "words" wordParser, .hook "words-ast" meddling]

def meddledEntry : Invocation kit := ⟨.new ⟨[meddled]⟩ "words", { state := {} }⟩

/-- What the hook commits before the parse is lost; what it adds afterwards is left to the caller, but
    is not in the answer. -/
theorem committed_despite_meddling : ∃ parsed after,
    Pipeline.parse {} Script.capabilities "a" meddledEntry = .ok parsed after ∧
      parsed.text = "a!" ∧ after.options.committed = some "a!?" ∧
      ∃ parser options before tree world, options.committed = some "a!" ∧
        Script.capabilities.parse parser "a!" options before = .ok tree world := by
  have succeeds : ∃ parsed after, Pipeline.parse {} Script.capabilities "a" meddledEntry = .ok parsed after ∧
      parsed.text = "a!" ∧ after.options.committed = some "a!?" := ⟨_, _, rfl, rfl, rfl⟩
  obtain ⟨parsed, after, whole, answered, kept⟩ := succeeds
  obtain ⟨plan, _, _, handed, tree, world, _, _, _, _, parses, _⟩ :=
    (committed_is_text_of_hooks {} Script.capabilities "a" meddledEntry).1 parsed after whole
  rw [answered] at parses
  exact ⟨parsed, after, whole, answered, kept, plan.parser, _, handed.world, tree, world, rfl, parses⟩

end

end Polyglot.Pipeline
