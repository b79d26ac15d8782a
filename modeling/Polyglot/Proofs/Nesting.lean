import Polyglot.Proofs.Courses
import Polyglot.Proofs.Embedding

/-!
# Hooks along a chain of parses

Where parses stand inside each other and no hook writes the context, a parse begins in the
context of its own parser and of the parser right around it (`Nested.context_eq`). So its
hooks are those that are declared for its tree format and have one of three scopes (`scopesOf`),
whatever stands further out (`hooks_of_nested`).
-/

namespace Polyglot.Embedding

open Outcome Pipeline Declared

variable {κ : Kit}

/-- Parses inside each other, the innermost first, each with the name of its parser: the outermost
    one begins in a context of its own, any other on the options that the parser around it is
    given, embedded for its own parser. The hooks of the parses around spare the context. -/
inductive Nested : List (Level κ × String) → Prop
  | top {level : Level κ} {own : String} (context : level.entry.options.context = .top own) : Nested [(level, own)]
  | inside {level outer : Level κ} {own parent : String} {around : List (Level κ × String)} {ready : Ready κ}
      {reached : Invocation κ} (nested : Nested ((outer, parent) :: around)) (reaches : outer.Reaches ready reached)
      (spares : ∀ hook ∈ ready.hooks, Spares outer.capabilities Options.context hook)
      (options : level.entry.options = reached.options.embedded own) :
      Nested ((level, own) :: (outer, parent) :: around)

/-- The scopes of hooks that take part in a parse, by its parser and the parser right around it. -/
def scopesOf (own : String) (parent : Option String) : List Scope :=
  .any :: .parser own :: (parent.map Scope.parent).toList

/-! ## Contexts -/

/-- The parser of a parse is given the context that the parse began in, when its hooks spare it. -/
theorem context_of_reaches {level : Level κ} {ready : Ready κ} {reached : Invocation κ}
    (reaches : level.Reaches ready reached)
    (spares : ∀ hook ∈ ready.hooks, Spares level.capabilities Options.context hook) :
    reached.options.context = level.entry.options.context := by
  obtain ⟨text, start, handed, opens, stage, rfl⟩ := approach_eq_ok_iff_opens.mp reaches
  have kept : handed.options.context = start.options.context := (keeps_beforeParse spares text).of_ok stage
  rw [← options_of_opens opens]
  exact kept

/-- A parse inside others begins in the context of its parser and of the one right around it. -/
theorem Nested.context_eq {level : Level κ} {own : String} {around : List (Level κ × String)}
    (nested : Nested ((level, own) :: around)) :
    level.entry.options.context = ⟨own, around.head?.map Prod.snd⟩ := by
  induction around generalizing level own with
  | nil =>
    cases nested with
    | top context => exact context
  | cons head rest ih =>
    cases nested with
    | inside nested reaches spares options =>
      rw [options, Options.embedded_context, context_of_reaches reaches spares, ih nested]
      rfl

/-- The parses around one of a chain are a chain with it. -/
theorem Nested.of_append {inside rest : List (Level κ × String)} (nonempty : rest ≠ [])
    (nested : Nested (inside ++ rest)) : Nested rest := by
  induction inside with
  | nil => exact nested
  | cons head more ih =>
    rw [List.cons_append] at nested
    generalize whole : more ++ rest = chain at nested ih
    cases nested with
    | top => exact absurd (List.append_eq_nil_iff.mp whole).2 nonempty
    | inside nested _ _ _ => exact ih nested

/-! ## Hooks -/

theorem applies_iff_mem_scopesOf (scope : Scope) (own : String) (parent : Option String) :
    scope.applies ⟨own, parent⟩ = true ↔ scope ∈ scopesOf own parent := by
  cases scope <;> cases parent <;> simp [Scope.applies, scopesOf, eq_comm]

theorem inScope_eq_filter (profile : Profile κ) (own : String) (parent : Option String) (hooks : List κ.Hook) :
    Dispatch.inScope profile ⟨own, parent⟩ hooks =
      hooks.filter fun hook => profile.hookScope hook ∈ scopesOf own parent := by
  apply List.filter_congr
  intro hook _
  rw [Bool.eq_iff_iff, applies_iff_mem_scopesOf, decide_eq_true_iff]

/-- The hooks of a parse of a chain, at whatever depth it stands, are those declared for the tree
    format of its parser that have one of the scopes by its parser and the parser right around
    it; and of these, those that declare a stage are called at it, in the order of their
    declarations: all of them when the parse succeeds, all of the stage before its parser when it gets
    as far as that, and otherwise those up to the one that fails. -/
theorem hooks_of_nested {inside around : List (Level κ × String)} {level : Level κ} {own : String}
    {bundles : List (Bundle κ)} (nested : Nested (inside ++ (level, own) :: around))
    (registered : level.entry.options.registry.plugins = bundles.map Bundle.plugin) :
    level.entry.options.context = ⟨own, around.head?.map Prod.snd⟩ ∧
      ∀ plan text start, Opens level.capabilities level.raw level.entry plan text start →
        ∃ found declared supplied,
          level.entry.options.registry.resolveParser level.capabilities.toProfile own (entered level.entry) =
            .ok plan.parser found ∧
          Supplied (hookSources (level.capabilities.treeFormat plan.parser) bundles) found declared supplied ∧
          plan.hooks = (declared.filter fun hook =>
            level.capabilities.hookScope hook ∈ scopesOf own (around.head?.map Prod.snd)) ∧
          (around = [] → ∀ hook ∈ plan.hooks, ∀ name, level.capabilities.hookScope hook ≠ .parent name) ∧
          (∀ parsed after, level.parse = .ok parsed after → ∃ last,
            Calls level.capabilities (plan.calls level.capabilities.toProfile) (.source text) start
              (.parsed parsed) last) ∧
          (∀ ready reached, level.Reaches ready reached → ∃ handed,
            Calls level.capabilities (plan.before level.capabilities.toProfile) (.source text) start
              (.source ready.text) handed) ∧
          (∀ fault after, level.parse = .error fault after → ∃ earlier call document middle raised last,
            earlier ++ [call] <+: plan.calls level.capabilities.toProfile ∧
            Calls level.capabilities earlier (.source text) start document middle ∧
            Breaks level.capabilities call document middle raised last) := by
  have context := (Nested.of_append (List.cons_ne_nil _ _) nested).context_eq
  refine ⟨context, fun plan text start opens => ?_⟩
  obtain ⟨found, declared, supplied, resolves, _, supplies, selects⟩ := planned_of_opens registered opens
  rw [context] at resolves
  rw [context, inScope_eq_filter] at selects
  refine ⟨found, declared, supplied, resolves, supplies, selects, ?_, ?_, ?_, ?_⟩
  · rintro rfl hook member name parental
    rw [selects] at member
    have fits := of_decide_eq_true (List.mem_filter.mp member).2
    simp [parental, scopesOf] at fits
  · intro parsed after succeeded
    obtain ⟨last, calls, _⟩ := proceed_eq_ok_iff.mp ((parse_eq_of_opens opens level.pipeline).symm.trans succeeded)
    exact ⟨last, calls⟩
  · intro ready reached reaches
    obtain ⟨_, _, handed, begins, stage, _⟩ := approach_eq_ok_iff_opens.mp reaches
    obtain ⟨rfl, rfl, rfl⟩ := opens_unique opens begins
    exact ⟨handed, beforeParse_eq_ok_iff.mp stage⟩
  · intro fault after failed
    exact calls_of_stops (proceed_eq_error_iff.mp ((parse_eq_of_opens opens level.pipeline).symm.trans failed))

section
open Script

/-- A hook that leaves no more than an entry in the journal, before the parse. -/
def noting (scope : Scope) : ScriptHook := ⟨.closure "noting" (.ok scope) (some []) none, scope⟩

theorem spares_noting (inner : Capabilities kit) (scopes : List Scope) :
    ∀ hook ∈ (scopes.map noting : List kit.Hook), Spares (rules inner) Options.context hook := by
  intro hook member
  obtain ⟨scope, _, rfl⟩ := List.mem_map.mp member
  exact ⟨fun _ _ => rfl, fun _ _ => rfl⟩

/-- A parser that embeds what stands after a bar as a part. -/
def barred (label : String) : ScriptParser :=
  .scripted label { treeFormat := "ast", parse := .embed "|" "part" (.ok {}) }

/-- Two parsers of one tree format, and a hook of each scope. -/
def parts : Bundle kit := ⟨"p", [
  .parser "doc" (barred "p/doc"),
  .parser "part" (barred "p/part"),
  .hook "ast" (noting .any),
  .hook "ast" (noting (.parser "part")),
  .hook "ast" (noting (.parser "doc")),
  .hook "ast" (noting (.parent "doc")),
  .hook "ast" (noting (.parent "part"))]⟩

def whole : Level kit :=
  ⟨{}, Script.capabilities, "a|b|c", ⟨.new ⟨[parts.plugin]⟩ "doc", { state := {} }⟩⟩

def part : Level kit :=
  ⟨{}, .nest profile rules 1023, "b|c", ⟨whole.entry.options.embedded "part", { state := {} }⟩⟩

def partOfPart : Level kit :=
  ⟨{}, .nest profile rules 1022, "c", ⟨(whole.entry.options.embedded "part").embedded "part", { state := {} }⟩⟩

theorem nested_parts : Nested [(partOfPart, "part"), (part, "part"), (whole, "doc")] := by
  have outer : whole.Reaches ⟨barred "p/doc", [noting .any, noting (.parser "doc")], "a|b|c"⟩
      ⟨{ whole.entry.options with committed := some "a|b|c" }, _⟩ := rfl
  have inner : part.Reaches
      ⟨barred "p/part", [noting .any, noting (.parser "part"), noting (.parent "doc")], "b|c"⟩
      ⟨{ part.entry.options with committed := some "b|c" }, _⟩ := rfl
  exact .inside (.inside (.top rfl) outer (spares_noting _ [.any, .parser "doc"]) rfl) inner
    (spares_noting _ [.any, .parser "part", .parent "doc"]) rfl

/-- In a part of a part, the hook that is restricted to the document around both takes no part. -/
theorem hooks_of_partOfPart :
    Nested ([] ++ (partOfPart, "part") :: [(part, "part"), (whole, "doc")]) ∧
      partOfPart.entry.options.registry.plugins = [parts].map Bundle.plugin ∧
      partOfPart.entry.options.context = ⟨"part", some "part"⟩ ∧
      ∃ start handed, Calls partOfPart.capabilities
        [.before (noting .any), .before (noting (.parser "part")), .before (noting (.parent "part"))]
        (.source "c") start (.source "c") handed := by
  have registered : partOfPart.entry.options.registry.plugins = [parts].map Bundle.plugin := rfl
  have nested : Nested ([] ++ (partOfPart, "part") :: [(part, "part"), (whole, "doc")]) := nested_parts
  have opens : Opens partOfPart.capabilities partOfPart.raw partOfPart.entry
      ⟨barred "p/part", [noting .any, noting (.parser "part"), noting (.parent "part")]⟩ "c" _ :=
    .intro rfl rfl rfl
  have reaches : partOfPart.Reaches
      ⟨barred "p/part", [noting .any, noting (.parser "part"), noting (.parent "part")], "c"⟩ _ := rfl
  obtain ⟨context, fires⟩ := hooks_of_nested nested registered
  obtain ⟨_, _, _, _, _, _, _, _, before, _⟩ := fires _ _ _ opens
  obtain ⟨handed, made⟩ := before _ _ reaches
  exact ⟨nested, registered, context, _, handed, made⟩

end

end Polyglot.Embedding
