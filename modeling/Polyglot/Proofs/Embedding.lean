import Polyglot.Proofs.Stages
import Polyglot.Script.Rules

/-!
# Embedded documents

A parser may parse a part of its text with another parser, on options of its own, and
hand a failure of that on as its own failure (`Embeds`); so parses stand inside each
other in chains of any length (`Chain`). Every parse of a chain puts a frame on the
failure of its parser unless it has one, so the failure of the innermost parser has the
frame of the innermost text (`innermost_failure_framed_once`).
-/

namespace Polyglot.Embedding

open Outcome Pipeline

variable {κ : Kit}

/-- A parse that is about to begin. -/
structure Level (κ : Kit) where
  pipeline : Pipeline
  capabilities : Capabilities κ
  raw : String
  /-- The options and the world that the parse begins with. -/
  entry : Invocation κ

namespace Level

def parse (level : Level κ) : EStateM.Result Fault (Invocation κ) Parsed :=
  level.pipeline.parse level.capabilities level.raw level.entry

def format (level : Level κ) : EStateM.Result Fault (Invocation κ) String :=
  level.pipeline.format level.capabilities level.raw level.entry

/-- The parse gets as far as its parser. -/
def Reaches (level : Level κ) (ready : Ready κ) (reached : Invocation κ) : Prop :=
  approach level.capabilities level.raw level.entry = .ok ready reached

/-- The fault that a failure of the level's parser becomes. -/
def frame (level : Level κ) (fault : Fault) : Fault := fault.framed level.pipeline.frame level.raw

end Level

/-- The parser of the outer parse runs the inner one on options embedded in its own, and
    fails with the fault of the inner parse when that fails. -/
inductive Embeds (outer inner : Level κ) : Prop
  | intro (ready : Ready κ) (reached : Invocation κ) (parser : String)
      (reaches : outer.Reaches ready reached)
      (options : inner.entry.options = reached.options.embedded parser)
      (handsOn : ∀ fault after, inner.parse = .error fault after →
        ∃ world, outer.capabilities.parse ready.parser ready.text reached.options reached.world = .error fault world)

/-- The first of the parses around an innermost one, or that one where there are none. -/
def outermost (around : List (Level κ)) (innermost : Level κ) : Level κ := around.headD innermost

/-- Parses that stand inside each other: those around the innermost one, the outermost first. -/
inductive Chain (innermost : Level κ) : List (Level κ) → Prop
  | alone : Chain innermost []
  | inside {outer : Level κ} {around : List (Level κ)} (embeds : Embeds outer (outermost around innermost))
      (chain : Chain innermost around) : Chain innermost (outer :: around)

/-! ## Failures along a chain -/

/-- What a fault of an innermost parse is when it leaves the parses around. -/
def framedAlong (around : List (Level κ)) (fault : Fault) : Fault := around.foldr Level.frame fault

theorem parse_eq_error_of_reaches {level : Level κ} {ready : Ready κ} {reached : Invocation κ} {fault : Fault}
    {world : World κ.State} (reaches : level.Reaches ready reached)
    (failed : level.capabilities.parse ready.parser ready.text reached.options reached.world = .error fault world) :
    ∃ after, level.parse = .error (level.frame fault) after :=
  ⟨_, parse_eq_error_of_runParser reaches (runParser_eq_error failed level.pipeline level.raw)⟩

/-- One step outwards: the parse around fails with the fault of its parser, framed. -/
theorem parse_eq_error_of_embeds {outer inner : Level κ} {fault : Fault} {after : Invocation κ}
    (embeds : Embeds outer inner) (failed : inner.parse = .error fault after) :
    ∃ after, outer.parse = .error (outer.frame fault) after := by
  obtain ⟨ready, reached, _, reaches, _, handsOn⟩ := embeds
  obtain ⟨_, parserFailed⟩ := handsOn fault after failed
  exact parse_eq_error_of_reaches reaches parserFailed

theorem parse_outermost_eq_error {around : List (Level κ)} {innermost : Level κ} {fault : Fault}
    {after : Invocation κ} (chain : Chain innermost around) (failed : innermost.parse = .error fault after) :
    ∃ after, (outermost around innermost).parse = .error (framedAlong around fault) after := by
  -- Along the chain outwards: what the parse inside fails with is what the parser around fails with.
  induction chain with
  | alone => exact ⟨after, failed⟩
  | inside embeds _ ih =>
    obtain ⟨_, next⟩ := ih
    exact parse_eq_error_of_embeds embeds next

/-- A fault that was framed once passes the parses around as it is. -/
theorem framedAlong_frame (around : List (Level κ)) (level : Level κ) (fault : Fault) :
    framedAlong around (level.frame fault) = level.frame fault := by
  induction around with
  | nil => rfl
  | cons outer rest ih =>
    show outer.frame (framedAlong rest (level.frame fault)) = level.frame fault
    rw [ih]
    exact Fault.framed_framed ..

/-- Of the parses around an innermost one, only the nearest may put a frame on its fault. -/
theorem framedAlong_concat (around : List (Level κ)) (parent : Level κ) (fault : Fault) :
    framedAlong (around ++ [parent]) fault = parent.frame fault := by
  show (around ++ [parent]).foldr Level.frame fault = parent.frame fault
  rw [List.foldr_append]
  exact framedAlong_frame around parent fault

/-! ## Parsers that embed documents -/

theorem parseOn_eq_error {level : Level κ} {fault : Fault} {after : Invocation κ}
    (failed : level.parse = .error fault after) :
    level.pipeline.parseOn level.capabilities level.raw level.entry.options level.entry.world =
      .error fault after.world := by
  have run : level.pipeline.parse level.capabilities level.raw ⟨level.entry.options, level.entry.world⟩ =
      .error fault after := failed
  simp only [parseOn, Run.on, run]

/-- A template embeds the expression of its binding. -/
theorem embeds_template {outer : Level κ} {inner : Capabilities κ} {ready : Ready κ} {reached : Invocation κ}
    {before code after : List Char} (reaches : outer.Reaches ready reached)
    (language : outer.capabilities.parse ready.parser = Language.parse inner .template)
    (bound : Language.Template.parse ready.text.toList = .ok (.bound before code after)) :
    Embeds outer ⟨{}, inner, .ofList code,
      ⟨reached.options.embedded Language.expression.parserName, reached.world⟩⟩ := by
  refine ⟨ready, reached, _, reaches, rfl, fun fault last failed => ⟨last.world, ?_⟩⟩
  rw [language]
  show Language.parseTemplate inner ready.text.toList reached.options reached.world = _
  simp only [Language.parseTemplate, bound]
  exact bind_eq_of_error (bind_eq_of_error (parseOn_eq_error failed) _) _

/-- Prose embeds each block of code in a known language, after the blocks before it. -/
theorem embeds_prose {outer : Level κ} {inner : Capabilities κ} {ready : Ready κ} {reached : Invocation κ}
    {earlier later : List Language.Block} {language code : List Char} {parser : String} {trees : List Tree}
    {middle world : World κ.State} {resolved : κ.Parser} (reaches : outer.Reaches ready reached)
    (prose : outer.capabilities.parse ready.parser = Language.parse inner .prose)
    (blocks : Language.Block.ofText ready.text.toList = earlier ++ .code language code :: later)
    (passed : earlier.mapM (Language.parseBlock inner reached.options) reached.world = .ok trees middle)
    (known : Language.parserOfCode language = some parser)
    (found : reached.options.registry.resolveParser inner.toProfile parser middle = .ok resolved world) :
    Embeds outer ⟨{}, inner, .ofList code, ⟨reached.options.embedded parser, world⟩⟩ := by
  refine ⟨ready, reached, _, reaches, rfl, fun fault last failed => ⟨last.world, ?_⟩⟩
  have blockFailed : Language.parseBlock inner reached.options (.code language code) middle =
      .error fault last.world := by
    simp only [Language.parseBlock, known]
    rw [bind_eq_of_ok found]
    exact bind_eq_of_error (bind_eq_of_error (parseOn_eq_error failed) _) _
  rw [prose]
  show Language.parseProse inner ready.text.toList reached.options reached.world = _
  unfold Language.parseProse
  rw [blocks]
  exact bind_eq_of_error (mapM_eq_error passed blockFailed later) _

open Script in
/-- A scripted parser embeds what stands after its separator, once its call is in the journal. -/
theorem embeds_script {outer : Level kit} {inner : Capabilities kit} {ready : Ready kit} {reached : Invocation kit}
    {label separator parser : String} {script : ParserScript} {frame : FrameSettings} {head rest : List Char}
    (reaches : outer.Reaches ready reached) (rules : outer.capabilities = Script.rules inner)
    (scripted : ready.parser = .scripted label script)
    (embed : script.parse = .embed separator parser (.ok frame))
    (split : Text.splitAtFirst separator.toList ready.text.toList = some (head, rest)) :
    Embeds outer ⟨⟨frame⟩, inner, .ofList rest, ⟨reached.options.embedded parser,
      { reached.world with state := reached.world.state.add (.parse label ready.text) }⟩⟩ := by
  refine ⟨ready, reached, _, reaches, rfl, fun fault last failed => ⟨last.world, ?_⟩⟩
  rw [rules, scripted]
  have stepFailed : script.parse.run inner ready.text reached.options
      { reached.world with state := reached.world.state.add (.parse label ready.text) } = .error fault last.world := by
    rw [embed]
    simp only [ParseScript.run, parseAfter, split]
    exact bind_eq_of_error (parseOn_eq_error failed) _
  exact stepFailed

/-! ## Failures of the innermost parser -/

/-- The failure of an innermost parser leaves the outermost parse, and printing after it, as
    that fault with the frame of its location in the innermost raw text, by the innermost
    settings; without a location, or with a frame of its own, it leaves it as it is. -/
theorem innermost_failure_framed_once {around : List (Level κ)} {innermost : Level κ} {ready : Ready κ}
    {reached : Invocation κ} {fault : Fault} {world : World κ.State} (chain : Chain innermost around)
    (reaches : innermost.Reaches ready reached)
    (failed : innermost.capabilities.parse ready.parser ready.text reached.options reached.world =
      .error fault world) :
    ∃ answer after, (outermost around innermost).parse = .error answer after ∧
      (outermost around innermost).format = .error answer after ∧
      answer.kind = fault.kind ∧ answer.location = fault.location ∧ answer.cause = fault.cause ∧
      (∀ location, fault.location = some location → fault.frame = none →
        answer.frame = some (Frame.render innermost.pipeline.frame innermost.raw location) ∧
        answer.message =
          fault.message ++ "\n" ++ Frame.render innermost.pipeline.frame innermost.raw location) ∧
      (fault.location = none ∨ fault.frame.isSome → answer = fault) := by
  obtain ⟨_, inside⟩ := parse_eq_error_of_reaches reaches failed
  obtain ⟨after, whole⟩ := parse_outermost_eq_error chain inside
  rw [framedAlong_frame] at whole
  refine ⟨innermost.frame fault, after, whole, format_eq_error_of_parse whole, Fault.kind_framed ..,
    Fault.location_framed .., Fault.cause_framed .., ?_, (Fault.framed_eq_self_iff ..).mpr⟩
  intro location located bare
  have attached : innermost.frame fault =
      fault.attach (Frame.render innermost.pipeline.frame innermost.raw location) :=
    Fault.framed_of_located located bare ..
  rw [attached]
  exact ⟨rfl, rfl⟩

section
open Script

/-- Prose with a template whose binding does not hold an expression. -/
def brokenProse : Level kit :=
  ⟨{}, Script.capabilities, "Some code:\n```vue\n<p :style=\"b\">\n```\n",
    ⟨.new ⟨[languages]⟩ "markdown", { state := {} }⟩⟩

/-- The parse of the template. -/
def brokenTemplate (world : World Journal) : Level kit :=
  ⟨{}, .nest profile rules 1023, "<p :style=\"b\">\n", ⟨brokenProse.entry.options.embedded "vue", world⟩⟩

/-- The parse of what stands in its binding. -/
def brokenExpression (world : World Journal) : Level kit :=
  ⟨{}, .nest profile rules 1022, "b",
    ⟨(brokenProse.entry.options.embedded "vue").embedded Language.expression.parserName, world⟩⟩

theorem brokenProse_embeds : ∃ world, Embeds brokenProse (brokenTemplate world) := by
  have reaches : brokenProse.Reaches ⟨.language .prose, [], brokenProse.raw⟩
      ⟨{ brokenProse.entry.options with committed := some brokenProse.raw }, _⟩ := rfl
  have prose : brokenProse.capabilities.parse (.language .prose) =
      Language.parse (.nest profile rules 1023) .prose := rfl
  have blocks : Language.Block.ofText brokenProse.raw.toList =
      [.prose "Some code:\n".toList] ++ .code "vue".toList "<p :style=\"b\">\n".toList :: [] := rfl
  have embeds := embeds_prose reaches prose blocks rfl rfl rfl
  exact ⟨_, embeds⟩

theorem brokenTemplate_embeds (before : World Journal) :
    ∃ world, Embeds (brokenTemplate before) (brokenExpression world) := by
  have reaches : (brokenTemplate before).Reaches ⟨.language .template, [], "<p :style=\"b\">\n"⟩
      ⟨{ (brokenTemplate before).entry.options with committed := some "<p :style=\"b\">\n" }, _⟩ := rfl
  have template : (brokenTemplate before).capabilities.parse (.language .template) =
      Language.parse (.nest profile rules 1022) .template := rfl
  have bound : Language.Template.parse "<p :style=\"b\">\n".toList =
      .ok (.bound "<p :style=\"".toList ['b'] "\">\n".toList) := rfl
  have embeds := embeds_template reaches template bound
  exact ⟨_, embeds⟩

/-- The failure of the expression leaves with a frame of the expression, not of the texts around. -/
theorem brokenExpression_framed_once :
    ∃ before world ready reached fault later, Chain (brokenExpression world) [brokenProse, brokenTemplate before] ∧
      (brokenExpression world).Reaches ready reached ∧
      (brokenExpression world).capabilities.parse ready.parser ready.text reached.options reached.world =
        .error fault later ∧
      ∃ answer after, brokenProse.format = .error answer after ∧ answer.frame = some "> 1 | b\n    | ^" := by
  obtain ⟨before, outer⟩ := brokenProse_embeds
  obtain ⟨world, inner⟩ := brokenTemplate_embeds before
  have chain : Chain (brokenExpression world) [brokenProse, brokenTemplate before] :=
    .inside outer (.inside inner .alone)
  have reaches : ∃ later, (brokenExpression world).Reaches ⟨.language .expression, [], "b"⟩
      ⟨{ (brokenExpression world).entry.options with committed := some "b" }, later⟩ := ⟨_, rfl⟩
  obtain ⟨later, reaches⟩ := reaches
  have failed (options : Options kit) :
      (rules (.nest profile rules 1021)).parse (.language .expression) "b" options later =
        .error ((Fault.syntactic "Expected an object literal.").located (.point ⟨1, 1⟩)) later := rfl
  obtain ⟨answer, after, _, whole, _, _, _, framed, _⟩ := innermost_failure_framed_once chain reaches (failed _)
  have shown : Frame.render {} "b" (.point ⟨1, 1⟩) = "> 1 | b\n    | ^" := by decide
  refine ⟨before, world, _, _, _, _, chain, reaches, failed _, answer, after, whole, ?_⟩
  rw [← shown]
  exact (framed _ rfl rfl).1

end

end Polyglot.Embedding
