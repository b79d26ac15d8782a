import Polyglot.Proofs.Commit
import Polyglot.Proofs.Steady

/-!
# Documents side by side

Each document that prose embeds is parsed with options of its own, made of those of the prose. Whatever hooks do to them
is gone when the next document begins, so a block has the tree that it has beside any other blocks
(`siblings_apart`).
-/

namespace Polyglot

open Outcome Pipeline Recovery

variable {κ : Kit}

namespace Statelessness

/-- The tree of a block is the same beside other blocks and in other worlds. -/
theorem child_eq {capabilities : Capabilities κ} {related : Plugin κ → Plugin κ → Prop}
    (memoryless : Memoryless capabilities related) {first second : Options κ} (abreast : Abreast related first second)
    {text other : List Char} {before begun after last : World κ.State} {tree twin : Tree}
    (parses : Language.parseProse capabilities text first before = .ok tree after)
    (again : Language.parseProse capabilities other second begun = .ok twin last) {place : Nat}
    {block : Language.Block} (here : (Language.Block.ofText text)[place]? = some block)
    (there : (Language.Block.ofText other)[place]? = some block) :
    ∃ child, (tree.member "children").itemsOrNone[place]? = some child ∧
      (twin.member "children").itemsOrNone[place]? = some child := by
  obtain ⟨children, middle, made, rest⟩ := bind_eq_ok_iff.mp parses
  obtain ⟨others, between, matched, more⟩ := bind_eq_ok_iff.mp again
  cases rest
  cases more
  obtain ⟨child, own, start, _, gives⟩ := exists_getElem?_of_forall₂ (forall₂_of_mapM_ok made) here
  obtain ⟨same, held, restart, _, offers⟩ := exists_getElem?_of_forall₂ (forall₂_of_mapM_ok matched) there
  have answers := matches_forgetful_iff.mp (matches_parseBlock memoryless abreast block) start restart
  rw [gives, offers] at answers
  cases answers
  exact ⟨child, own, held⟩

section
variable {rules : Capabilities κ → Capabilities κ} {parsers : Language → κ.Parser} {printers : TreeFormat → κ.Printer}

/-- With the languages and plugins that keep nothing but in the options, whatever their hooks do to these: two runs of
    the prose parser with options that differ in the committed text at most give a block the same tree where it stands
    at the same place in both texts, whatever stands at the other places. And in any parse the hooks after the
    parser begin with the options that the parser was given. -/
theorem siblings_apart {same : Plugin κ → Plugin κ → Prop} (speaks : Speaks rules parsers)
    (guests : Guests rules parsers printers same) (profile : Profile κ) (depth : Nat) :
    (∀ (options : Options κ) (committed : Option String) (text other : String) (before begun after last : World κ.State)
        (tree twin : Tree),
      (∀ plugin ∈ options.registry.plugins, WithLanguages parsers printers same plugin plugin) →
      (Capabilities.nest profile rules depth).parse (parsers .prose) text options before = .ok tree after →
      (Capabilities.nest profile rules depth).parse (parsers .prose) other { options with committed } begun =
        .ok twin last →
      ∀ (place : Nat) (block : Language.Block),
        (Language.Block.ofText text.toList)[place]? = some block →
        (Language.Block.ofText other.toList)[place]? = some block →
        ∃ child, (tree.member "children").itemsOrNone[place]? = some child ∧
          (twin.member "children").itemsOrNone[place]? = some child) ∧
    ∀ (pipeline : Pipeline) (raw : String) (entry after : Invocation κ) (parsed : Parsed),
      pipeline.parse (.nest profile rules depth) raw entry = .ok parsed after →
      ∃ plan text start given before tree world last,
        Opens (.nest profile rules depth) raw entry plan text start ∧
        (Capabilities.nest profile rules depth).parse plan.parser parsed.text given before = .ok tree world ∧
        Calls (.nest profile rules depth) (plan.after (Capabilities.nest profile rules depth).toProfile)
          (.parsed ⟨parsed.text, tree⟩) ⟨given, world⟩ (.parsed parsed) last ∧
        after.options = last.options := by
  constructor
  · intro options committed text other before begun after last tree twin registered parses again place block here there
    have abreast : Abreast (WithLanguages parsers printers same) options { options with committed } :=
      ⟨List.forall₂_same.mpr registered, rfl, rfl⟩
    obtain ⟨inner, whole, memoryless⟩ := exists_inner speaks guests profile depth
    rw [whole, speaks.parse] at parses again
    exact child_eq memoryless abreast parses again here there
  · intro pipeline raw entry after parsed succeeded
    obtain ⟨plan, text, start, last, opens, calls, rfl⟩ := parse_eq_ok_iff_opens.mp succeeded
    obtain ⟨handed, tree, world, _, parses, others⟩ := calls_plan_split calls
    exact ⟨plan, text, start, _, _, tree, world, last, opens, parses, others, rfl⟩

end

section Rummaging

open Script

/-- A hook on object literals that leaves none of the options as they are, and shows them in the tree. -/
def rummage : HookScript PluginScript := .closure "rummage" (.ok .any)
  (some [.options .clearPlugins, .options (.setSetting "seen" (.bool true)), .options (.setParser "other"),
    .options (.register .languages)])
  (some [.own (.setState "state"), .options (.appendCommitted "!")])

/-- A hook on prose that shows the options in the tree. -/
def look : HookScript PluginScript := .closure "look" (.ok .any) none (some [.own (.setState "outer")])

def rummager : PluginScript := .scripted "rummager" [.hook "estree" rummage, .hook "mdast" look]

/-- The plugin of the script. -/
def rummaging : Plugin kit := .ofDeclarations "rummager" [.hook "estree" ⟨rummage, .any⟩, .hook "mdast" ⟨look, .any⟩]

/-- The scripts that take part where the plugin is registered. -/
def Rummaging (script : PluginScript) : Prop := script = .languages ∨ script = rummager

theorem steady_rummaging : Steady Rummaging := by
  rintro name parts (never | same)
  · cases never
  cases same
  intro part member
  rcases List.mem_pair.mp member with rfl | rfl
  · constructor
    · rintro _ ⟨⟩ action among
      simp only [List.mem_cons, List.not_mem_nil, or_false] at among
      rcases among with rfl | rfl | rfl | rfl
      · trivial
      · trivial
      · trivial
      · exact .inl rfl
    · rintro _ ⟨⟩ action among
      rcases List.mem_pair.mp among with rfl | rfl <;> trivial
  · constructor
    · rintro _ ⟨⟩
    · rintro _ ⟨⟩ action among
      cases List.mem_singleton.mp among
      trivial

/-- Options with the plugin beside the languages. -/
def rummaged : Options kit := .new ⟨[languages, rummaging]⟩ "markdown"

/-- Two blocks of code, whose own options the hooks change. -/
def follower : String := "```js\nlet x = \x7by: z\x7d;\n```\n```js\nlet a = \x7bb: c\x7d;\n```\n"

/-- The second of the blocks after a line of prose. -/
def lone : String := "words\n```js\nlet a = \x7bb: c\x7d;\n```\n"

theorem siblings_apart_rummaging :
    ∃ tree twin after last,
      capabilities.parse (.language .prose) follower rummaged { state := {} } = .ok tree after ∧
      capabilities.parse (.language .prose) lone { rummaged with committed := some "more" } { state := {} } =
        .ok twin last ∧
      (∃ child, (tree.member "children").itemsOrNone[1]? = some child ∧
        (twin.member "children").itemsOrNone[1]? = some child) ∧
      ∃ parsed closing plan text start given before tree world last,
        Pipeline.parse {} capabilities follower ⟨rummaged, { state := {} }⟩ = .ok parsed closing ∧
        Opens capabilities follower ⟨rummaged, { state := {} }⟩ plan text start ∧
        capabilities.parse plan.parser parsed.text given before = .ok tree world ∧
        Calls capabilities (plan.after capabilities.toProfile) (.parsed ⟨parsed.text, tree⟩) ⟨given, world⟩
          (.parsed parsed) last ∧
        closing.options = last.options := by
  obtain ⟨child, calls⟩ := siblings_apart speaks_rules (guests_of_steady steady_rummaging) profile nestingLimit
  have registered : ∀ plugin ∈ rummaged.registry.plugins, Registered Rummaging plugin plugin := by
    intro plugin member
    rcases List.mem_pair.mp member with rfl | rfl
    · exact .languages
    · exact registered_of_build (.inr rfl) steady_rummaging (show rummager.build {} = .ok rummaging {} from rfl)
  obtain ⟨tree, after, parses⟩ : ∃ tree after,
      capabilities.parse (.language .prose) follower rummaged { state := {} } = .ok tree after :=
    exists_ok_of_isOk (by decide +kernel)
  obtain ⟨twin, last, again⟩ : ∃ twin last, capabilities.parse (.language .prose) lone
      { rummaged with committed := some "more" } { state := {} } = .ok twin last :=
    exists_ok_of_isOk (by decide +kernel)
  obtain ⟨parsed, closing, whole⟩ : ∃ parsed closing,
      Pipeline.parse {} capabilities follower ⟨rummaged, { state := {} }⟩ = .ok parsed closing :=
    exists_ok_of_isOk (by decide +kernel)
  obtain ⟨plan, text, start, given, before, made, world, ends, opens, rest⟩ := calls _ _ _ _ _ whole
  have here : (Language.Block.ofText follower.toList)[1]? =
      some (.code ['j', 's'] "let a = \x7bb: c\x7d;\n".toList) := rfl
  have there : (Language.Block.ofText lone.toList)[1]? =
      some (.code ['j', 's'] "let a = \x7bb: c\x7d;\n".toList) := rfl
  refine ⟨tree, twin, after, last, parses, again, ?_, parsed, closing, plan, text, start, given, before, made, world,
    ends, whole, opens, rest⟩
  exact child _ (some "more") _ _ _ _ _ _ _ _ registered parses again 1 _ here there

end Rummaging

end Statelessness

end Polyglot
