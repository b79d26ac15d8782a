import Polyglot.Proofs.Answers
import Polyglot.Proofs.Printing
import Polyglot.Script.Rules

/-!
# Documents

What the built-in languages read in a text is a document: it has a tree, and a text of its own. Where a registry
holds the built-in languages and nothing else, a parse gives the tree of the document that it reads, and
formatting gives its text, whatever else is in the options and in the world (`answer_parse_of_alone`,
`answer_format_of_alone`).
-/

namespace Polyglot

namespace Language

open Outcome Pipeline
open Answers (map_map mapError_map map_eq_ok_iff mapError_map_eq_ok_iff mapM_map)

/-- What is read of a text, or the fault of a problem in it. -/
def located {α : Type} (text : List Char) (outcome : Except Problem α) : Except Fault α :=
  outcome.mapError (Problem.fault text)

/-- What is read of an embedded text: a fault has a frame of that text, as by default. -/
def embedded {α : Type} (text : List Char) (outcome : Except Fault α) : Except Fault α :=
  outcome.mapError fun fault => fault.framed {} (.ofList text)

theorem embedded_map {α β : Type} (text : List Char) (outcome : Except Fault α) (f : α → β) :
    embedded text (outcome.map f) = (embedded text outcome).map f :=
  mapError_map outcome f _

/-- A template with what its binding holds. -/
inductive Styled
  | plain (text : List Char)
  | bound (before : List Char) (literal : ObjectLiteral) (after : List Char)

namespace Styled

def read (text : List Char) : Except Fault Styled :=
  match Template.parse text with
  | .error problem => .error (problem.fault text)
  | .ok (.plain text) => .ok (.plain text)
  | .ok (.bound before inner after) =>
    (embedded inner (located inner (ObjectLiteral.parse inner))).map fun literal => .bound before literal after

def tree : Styled → Json
  | .plain text => Template.tree text .null []
  | .bound before literal after => Template.tree before (expressionTree literal) after

def chars : Styled → List Char
  | .plain text => Template.chars text [] []
  | .bound before literal after => Template.chars before literal.chars after

end Styled

/-- A block with what was read of its code. -/
inductive Passage
  | prose (text : List Char)
  | code (language text : List Char)
  | declaration (declaration : Declaration)
  | template (template : Styled)

namespace Passage

/-- What names the language of a declaration to a fence. -/
def declarationFence : List Char := ['j', 's']

def templateFence : List Char := ['v', 'u', 'e']

def read : Block → Except Fault Passage
  | .prose text => .ok (.prose text)
  | .code language text =>
    if language = declarationFence then
      (embedded text (located text (Declaration.parse text))).map .declaration
    else if language = templateFence then (embedded text (Styled.read text)).map .template
    else .ok (.code language text)

theorem read_declarationFence (text : List Char) :
    read (.code declarationFence text) = (embedded text (located text (Declaration.parse text))).map .declaration := rfl

theorem read_templateFence (text : List Char) :
    read (.code templateFence text) = (embedded text (Styled.read text)).map .template := rfl

theorem read_of_unknown {name : List Char} (declares : name ≠ declarationFence) (styles : name ≠ templateFence)
    (text : List Char) : read (.code name text) = .ok (.code name text) := by
  rw [read, if_neg declares, if_neg styles]

theorem parserOfCode_declarationFence : parserOfCode declarationFence = some Language.declaration.parserName := rfl

theorem parserOfCode_templateFence : parserOfCode templateFence = some Language.template.parserName := rfl

theorem parserOfCode_of_unknown {name : List Char} (declares : name ≠ declarationFence)
    (styles : name ≠ templateFence) : parserOfCode name = none :=
  (if_neg declares).trans (if_neg styles)

def tree : Passage → Json
  | .prose text => Block.proseTree text
  | .code language text => Block.codeTree language text
  | .declaration made => Block.parsedTree declarationFence TreeFormat.estree.name made.tree
  | .template made => Block.parsedTree templateFence TreeFormat.vue.name made.tree

def chars : Passage → List Char
  | .prose text => text
  | .code language text => Block.fenced language text
  | .declaration made => Block.fenced declarationFence made.chars
  | .template made => Block.fenced templateFence made.chars

end Passage

/-- What one of the languages reads. -/
inductive Document
  | declaration (declaration : Declaration)
  | expression (literal : ObjectLiteral)
  | template (template : Styled)
  | prose (passages : List Passage)

namespace Document

def read : Language → List Char → Except Fault Document
  | .declaration, text => (located text (Declaration.parse text)).map .declaration
  | .expression, text => (located text (ObjectLiteral.parse text)).map .expression
  | .template, text => (Styled.read text).map .template
  | .prose, text => ((Block.ofText text).mapM Passage.read).map .prose

def tree : Document → Json
  | .declaration made => made.tree
  | .expression literal => expressionTree literal
  | .template made => made.tree
  | .prose passages => Block.rootTree (passages.map Passage.tree)

def chars : Document → List Char
  | .declaration made => made.chars
  | .expression literal => literal.chars
  | .template made => made.chars
  | .prose passages => passages.flatMap Passage.chars

end Document

/-! ## The languages by themselves -/

open Script (kit languages profile rules)

/-- The options of a parse by one of the built-in languages, which are all that is registered. -/
structure Alone (language : Language) (options : Options kit) : Prop where
  plugins : options.registry.plugins = [languages]
  parser : options.context.parser = language.parserName

/-- New options of that kind. -/
def fresh (language : Language) : Options kit := .new ⟨[languages]⟩ language.parserName

theorem alone_fresh (language : Language) : Alone language (fresh language) := ⟨rfl, rfl⟩

section
variable {options : Options kit} (registered : options.registry.plugins = [languages])
include registered

theorem resolveParser_of_languages (language : Language) (world : World Script.Journal) :
    ∃ after, options.registry.resolveParser profile language.parserName world = .ok (.language language) after := by
  obtain ⟨⟨plugins⟩, _, _, _⟩ := options
  cases registered
  cases language <;> exact ⟨_, rfl⟩

theorem resolvePrinter_of_languages (treeFormat : TreeFormat) (world : World Script.Journal) :
    ∃ after, options.registry.resolvePrinter treeFormat.name world = .ok (.language treeFormat) after := by
  obtain ⟨⟨plugins⟩, _, _, _⟩ := options
  cases registered
  cases treeFormat <;> exact ⟨_, rfl⟩

theorem resolveHooks_of_languages (treeFormat : TreeFormat) (world : World Script.Journal) :
    ∃ after, options.registry.resolveHooks treeFormat.name world = .ok [] after := by
  obtain ⟨⟨plugins⟩, _, _, _⟩ := options
  cases registered
  cases treeFormat <;> exact ⟨_, rfl⟩

theorem settles_printOn (inner : Capabilities kit) (treeFormat : TreeFormat) {tree : Tree} {outcome : Except Fault String}
    (prints : Settles (Language.print inner treeFormat tree options) outcome) :
    Settles (printOn (rules inner) treeFormat.name tree options) outcome := by
  intro world
  obtain ⟨after, resolves⟩ := resolvePrinter_of_languages registered treeFormat world
  rw [printOn, bind_eq_of_ok resolves]
  exact prints after

end

section
variable {language : Language} {options : Options kit} {raw : String}

theorem opens_of_alone (alone : Alone language options) (inner : Capabilities kit) (raw : String)
    (world : World Script.Journal) :
    ∃ begun, Opens (rules inner) raw ⟨options, world⟩ ⟨.language language, []⟩ raw ⟨options, begun⟩ := by
  obtain ⟨found, resolves⟩ := resolveParser_of_languages alone.plugins language (entered ⟨options, world⟩)
  obtain ⟨gathered, hooks⟩ := resolveHooks_of_languages alone.plugins language.treeFormat found
  rw [← alone.parser] at resolves
  have enters : enter profile ⟨options, world⟩ = .ok (.language language) ⟨options, found⟩ :=
    enter_eq_ok_iff.mpr ⟨found, resolves, rfl⟩
  have gathers : ∃ begun, gather profile (.language language) ⟨options, found⟩ = .ok [] ⟨options, begun⟩ :=
    ⟨_, gather_eq_ok_iff.mpr ⟨[], gathered, hooks, rfl, rfl⟩⟩
  obtain ⟨begun, gathers⟩ := gathers
  have preprocesses : (rules inner).preprocess (.language language) raw options begun = .ok raw begun := rfl
  have opens := @Opens.intro kit (rules inner) raw ⟨options, world⟩ ⟨.language language, []⟩ ⟨options, found⟩
    ⟨options, begun⟩ raw begun enters gathers preprocesses
  exact ⟨begun, opens⟩

/-- What the parser of the language gives decides the parse: the tree, or the fault with a frame. -/
theorem parse_of_alone (alone : Alone language options) {inner : Capabilities kit} {outcome : Except Fault Tree}
    (parses : Settles (Language.parse inner language raw { options with committed := some raw }) outcome)
    (pipeline : Pipeline) (world : World Script.Journal) :
    (∀ tree, outcome = .ok tree → ∃ last, pipeline.parse (rules inner) raw ⟨options, world⟩ =
      .ok ⟨raw, tree⟩ ⟨{ options with committed := some raw }, last⟩) ∧
    ∀ fault, outcome = .error fault → ∃ after, pipeline.parse (rules inner) raw ⟨options, world⟩ =
      .error (fault.framed pipeline.frame raw) after := by
  obtain ⟨begun, opens⟩ := opens_of_alone alone inner raw world
  have settled := parses begun
  -- Without hooks, the parser is called at once on the options with its text.
  have proceeds : pipeline.parse (rules inner) raw ⟨options, world⟩ =
      (pipeline.runParser (rules inner) (.language language) raw raw >>= fun tree =>
        conclude (rules inner) ⟨.language language, [], raw⟩ tree)
        ⟨{ options with committed := some raw }, begun⟩ := parse_eq_of_opens opens pipeline
  constructor
  · rintro tree rfl
    obtain ⟨last, made⟩ := answer_eq_ok_iff.mp settled
    have ran : pipeline.runParser (rules inner) (.language language) raw raw
        ⟨{ options with committed := some raw }, begun⟩ = .ok tree ⟨{ options with committed := some raw }, last⟩ :=
      runParser_eq_ok_iff.mpr ⟨last, made, rfl⟩
    rw [proceeds, bind_eq_of_ok ran]
    exact ⟨_, rfl⟩
  · rintro fault rfl
    obtain ⟨last, made⟩ := answer_eq_error_iff.mp settled
    have ran : ∃ after, pipeline.runParser (rules inner) (.language language) raw raw
        ⟨{ options with committed := some raw }, begun⟩ = .error (fault.framed pipeline.frame raw) after :=
      ⟨_, runParser_eq_error made pipeline raw⟩
    obtain ⟨after, ran⟩ := ran
    exact ⟨after, proceeds.trans (bind_eq_of_error ran _)⟩

end

/-! ## Reading -/

theorem ofParse_eq {α : Type} (text : List Char) (outcome : Except Problem α) (tree : α → Tree) :
    ofParse text outcome tree = (located text outcome).map tree := by
  cases outcome <;> rfl

theorem answer_ofAction {κ : Kit} {α : Type} (action : Options κ → Action κ.State α) (before : Invocation κ) :
    answer (Run.ofAction action before) = answer (action before.options before.world) := by
  unfold Run.ofAction
  cases action before.options before.world <;> rfl

theorem settles_ofExcept {σ α : Type} (outcome : Except Fault α) :
    Settles (Action.ofExcept outcome : Action σ α) outcome := by
  cases outcome <;> exact fun _ => rfl

theorem settles_parse_declaration (inner : Capabilities kit) (text : List Char) (options : Options kit) :
    Settles (Language.parse inner .declaration (.ofList text) options)
      ((located text (Declaration.parse text)).map Declaration.tree) := by
  show Settles (Action.ofExcept (ofParse (String.ofList text).toList (Declaration.parse _) _)) _
  rw [String.toList_ofList, ofParse_eq]
  exact settles_ofExcept _

theorem settles_parse_expression (inner : Capabilities kit) (text : List Char) (options : Options kit) :
    Settles (Language.parse inner .expression (.ofList text) options)
      ((located text (ObjectLiteral.parse text)).map expressionTree) := by
  show Settles (Action.ofExcept (ofParse (String.ofList text).toList (ObjectLiteral.parse _) _)) _
  rw [String.toList_ofList, ofParse_eq]
  exact settles_ofExcept _

theorem answer_parseEmbedded {κ : Kit} (capabilities : Capabilities κ) (parser : String) (text : List Char)
    (options : Options κ) (world : World κ.State) :
    answer (parseEmbedded capabilities parser text options world) =
      (answer (Pipeline.parse {} capabilities (.ofList text) ⟨options.embedded parser, world⟩)).map Parsed.tree := by
  simp only [parseEmbedded, parseOn, Run.on, bind, EStateM.bind]
  cases Pipeline.parse {} capabilities (.ofList text) ⟨options.embedded parser, world⟩ <;> rfl

section
variable {options : Options kit} (registered : options.registry.plugins = [languages])
include registered

theorem settles_parseEmbedded {language : Language} {inner : Capabilities kit} {text : List Char}
    {outcome : Except Fault Tree}
    (parses : ∀ again : Options kit, again.registry.plugins = [languages] →
      Settles (Language.parse inner language (.ofList text) again) outcome) :
    Settles (parseEmbedded (rules inner) language.parserName text options) (embedded text outcome) := by
  have alone : Alone language (options.embedded language.parserName) := ⟨registered, rfl⟩
  intro world
  obtain ⟨succeeds, fails⟩ := parse_of_alone alone (parses _ registered) {} world
  rw [answer_parseEmbedded]
  cases outcome with
  | ok tree =>
    obtain ⟨last, parsed⟩ := succeeds tree rfl
    rw [parsed]
    rfl
  | error fault =>
    obtain ⟨after, failed⟩ := fails fault rfl
    rw [failed]
    rfl

theorem settles_parse_template (inner : Capabilities kit) (text : List Char) :
    Settles (Language.parse (rules inner) .template (.ofList text) options) ((Styled.read text).map Styled.tree) := by
  show Settles (parseTemplate (rules inner) (String.ofList text).toList options) _
  rw [String.toList_ofList]
  unfold parseTemplate Styled.read
  cases Template.parse text with
  | error problem => exact settles_throw _
  | ok template =>
    cases template with
    | plain text => exact settles_pure _
    | bound before code after =>
      have reads := settles_parseEmbedded registered fun again _ => settles_parse_expression inner code again
      rw [embedded_map] at reads
      have settles := reads.map fun tree => Template.tree before tree after
      rw [map_map] at settles ⊢
      exact settles

/-- A block of code in a known language has the tree that its parser gives, with the format of that parser. -/
theorem settles_parseBlock_of_known {inner : Capabilities kit} {language : Language} {name text : List Char}
    {outcome : Except Fault Tree} (known : parserOfCode name = some language.parserName)
    (reads : Settles (parseEmbedded (rules inner) language.parserName text options) outcome) :
    Settles (parseBlock (rules inner) options (.code name text))
      (outcome.map (Block.parsedTree name language.treeFormat.name)) := by
  intro world
  obtain ⟨after, resolves⟩ := resolveParser_of_languages registered language world
  have found : options.registry.resolveParser (rules inner).toProfile language.parserName world =
      .ok (.language language) after := resolves
  simp only [parseBlock, known]
  rw [bind_eq_of_ok found]
  exact reads.map _ after

theorem settles_parseBlock (inner : Capabilities kit) (block : Block) :
    Settles (parseBlock (rules (rules inner)) options block) ((Passage.read block).map Passage.tree) := by
  cases block with
  | prose text => exact settles_pure _
  | code name text =>
    by_cases declares : name = Passage.declarationFence
    · subst declares
      have reads := settles_parseEmbedded registered fun again _ => settles_parse_declaration (rules inner) text again
      have settles := settles_parseBlock_of_known registered Passage.parserOfCode_declarationFence reads
      rw [embedded_map, map_map] at settles
      rw [Passage.read_declarationFence, map_map]
      exact settles
    · by_cases styles : name = Passage.templateFence
      · subst styles
        have reads := settles_parseEmbedded registered fun again plugins => settles_parse_template plugins inner text
        have settles := settles_parseBlock_of_known registered Passage.parserOfCode_templateFence reads
        rw [embedded_map, map_map] at settles
        rw [Passage.read_templateFence, map_map]
        exact settles
      · rw [Passage.read_of_unknown declares styles]
        simp only [parseBlock, Passage.parserOfCode_of_unknown declares styles]
        exact settles_pure _

theorem settles_parse_prose (inner : Capabilities kit) (text : List Char) :
    Settles (Language.parse (rules (rules inner)) .prose (.ofList text) options)
      ((Document.read .prose text).map Document.tree) := by
  show Settles (parseProse (rules (rules inner)) (String.ofList text).toList options) _
  rw [String.toList_ofList]
  have settles := (Settles.mapM (settles_parseBlock registered inner) (Block.ofText text)).map Block.rootTree
  rw [mapM_map, map_map] at settles
  rw [Document.read, map_map]
  exact settles

/-- Each language gives the tree of the document that it reads. -/
theorem settles_parse (inner : Capabilities kit) (language : Language) (text : List Char) :
    Settles (Language.parse (rules (rules inner)) language (.ofList text) options)
      ((Document.read language text).map Document.tree) := by
  cases language with
  | declaration =>
    rw [Document.read, map_map]
    exact settles_parse_declaration _ text options
  | expression =>
    rw [Document.read, map_map]
    exact settles_parse_expression _ text options
  | template =>
    rw [Document.read, map_map]
    exact settles_parse_template registered _ text
  | prose => exact settles_parse_prose registered inner text

end

/-! ## Printing -/

theorem ObjectLiteral.ofTree_tree (literal : ObjectLiteral) : ObjectLiteral.ofTree literal.tree = .ok literal := by
  have key : (((literal.tree.member "properties").item 0).member "key") = identifier literal.key := rfl
  have value : (((literal.tree.member "properties").item 0).member "value") = identifier literal.value := rfl
  simp only [ofTree, key, value, nameOf_identifier]
  rfl

theorem Declaration.ofTree_tree (declaration : Declaration) : Declaration.ofTree declaration.tree = .ok declaration := by
  have name : (((((declaration.tree.member "program").member "body").item 0).member "declarations").item 0).member "id" =
      ObjectLiteral.identifier declaration.name := rfl
  have init : (((((declaration.tree.member "program").member "body").item 0).member "declarations").item 0).member
      "init" = declaration.init.tree := rfl
  simp only [ofTree, name, init, ObjectLiteral.nameOf_identifier, ObjectLiteral.ofTree_tree]
  rfl

theorem printEstree_declaration (declaration : Declaration) :
    printEstree declaration.tree = .ok declaration.chars := by
  have kind : (declaration.tree.member "type").text? = some "File" := rfl
  simp only [printEstree, kind, Declaration.ofTree_tree]
  rfl

theorem printEstree_expression (literal : ObjectLiteral) : printEstree (expressionTree literal) = .ok literal.chars := by
  have kind : ((expressionTree literal).member "type").text? = some "JsExpressionRoot" := rfl
  have node : (expressionTree literal).member "node" = literal.tree := rfl
  simp only [printEstree, kind, node, ObjectLiteral.ofTree_tree]
  rfl

theorem settles_print_estree {tree : Tree} {text : List Char} (prints : printEstree tree = .ok text)
    (inner : Capabilities kit) (options : Options kit) :
    Settles (Language.print inner .estree tree options) (.ok (.ofList text)) := by
  show Settles (Action.ofExcept ((printEstree tree).map String.ofList)) _
  rw [prints]
  exact settles_ofExcept _

section
variable {options : Options kit} (registered : options.registry.plugins = [languages])
include registered

theorem settles_print_template (inner : Capabilities kit) (template : Styled) :
    Settles (Language.print (rules inner) .vue template.tree options) (.ok (.ofList template.chars)) := by
  cases template with
  | plain text =>
    have whole : (((Styled.plain text).tree.member "prefix").textOrEmpty).toList = text := String.toList_ofList
    show Settles (pure (String.ofList (Template.chars (Json.textOrEmpty _).toList [] []))) _
    rw [whole]
    exact settles_pure _
  | bound before literal after =>
    have front : (((Styled.bound before literal after).tree.member "prefix").textOrEmpty).toList = before :=
      String.toList_ofList
    have rear : (((Styled.bound before literal after).tree.member "suffix").textOrEmpty).toList = after :=
      String.toList_ofList
    have prints := settles_printOn registered inner .estree
      (settles_print_estree (printEstree_expression literal) inner options)
    have settles := prints.map fun text => String.ofList (Template.chars before text.toList after)
    show Settles (printOn (rules inner) TreeFormat.estree.name (expressionTree literal) options >>= fun text =>
      pure (String.ofList (Template.chars (Json.textOrEmpty _).toList text.toList (Json.textOrEmpty _).toList))) _
    rw [front, rear]
    rw [Except.map, String.toList_ofList] at settles
    exact settles

/-- A tree under its format is printed by the printer of the format. -/
theorem settles_printBlock_of_tree {inner : Capabilities kit} {treeFormat : TreeFormat} {tree : Tree}
    {text : List Char} (name : List Char)
    (prints : Settles (Language.print inner treeFormat tree options) (.ok (.ofList text))) :
    Settles (printBlock (rules inner) options (Block.parsedTree name treeFormat.name tree))
      (.ok (Block.fenced name text)) := by
  have settles := (settles_printOn registered inner treeFormat prints).map fun body => Block.fenced name body.toList
  have language : (((Block.parsedTree name treeFormat.name tree).member "lang").textOrEmpty).toList = name :=
    String.toList_ofList
  show Settles (printOn (rules inner) treeFormat.name tree options >>= fun body =>
    pure (Block.fenced (Json.textOrEmpty _).toList body.toList)) _
  rw [language]
  rw [Except.map, String.toList_ofList] at settles
  exact settles

theorem settles_printBlock (inner : Capabilities kit) (passage : Passage) :
    Settles (printBlock (rules (rules inner)) options passage.tree) (.ok passage.chars) := by
  cases passage with
  | prose text =>
    have value : (((Passage.prose text).tree.member "value").textOrEmpty).toList = text := String.toList_ofList
    show Settles (pure (Json.textOrEmpty _).toList) _
    rw [value]
    exact settles_pure _
  | code name text =>
    have language : (((Passage.code name text).tree.member "lang").textOrEmpty).toList = name := String.toList_ofList
    have value : (((Passage.code name text).tree.member "value").textOrEmpty).toList = text := String.toList_ofList
    show Settles (pure (Block.fenced (Json.textOrEmpty _).toList (Json.textOrEmpty _).toList)) _
    rw [language, value]
    exact settles_pure _
  | declaration made =>
    exact settles_printBlock_of_tree registered _
      (settles_print_estree (printEstree_declaration made) (rules inner) options)
  | template made => exact settles_printBlock_of_tree registered _ (settles_print_template registered inner made)

theorem settles_print_prose (inner : Capabilities kit) (passages : List Passage) :
    Settles (Language.print (rules (rules inner)) .mdast (Document.prose passages).tree options)
      (.ok (.ofList (passages.flatMap Passage.chars))) := by
  have prints := Settles.mapM (settles_printBlock registered inner) passages
  have whole : passages.mapM (fun passage => (.ok passage.chars : Except Fault (List Char))) =
      .ok (passages.map Passage.chars) := List.mapM_pure
  rw [whole] at prints
  have settles := prints.map fun blocks => String.ofList blocks.flatten
  show Settles ((passages.map Passage.tree).mapM (printBlock (rules (rules inner)) options) >>= fun blocks =>
    pure (String.ofList blocks.flatten)) _
  rw [List.mapM_map]
  rw [Except.map, ← List.flatMap_def] at settles
  exact settles

/-- What a language reads is printed with the text of the document. -/
theorem settles_print {inner : Capabilities kit} {language : Language} {text : List Char} {document : Document}
    (reads : Document.read language text = .ok document) :
    Settles (Language.print (rules (rules inner)) language.treeFormat document.tree options)
      (.ok (.ofList document.chars)) := by
  cases language with
  | declaration =>
    obtain ⟨made, _, rfl⟩ := map_eq_ok_iff.mp reads
    exact settles_print_estree (printEstree_declaration made) _ options
  | expression =>
    obtain ⟨literal, _, rfl⟩ := map_eq_ok_iff.mp reads
    exact settles_print_estree (printEstree_expression literal) _ options
  | template =>
    obtain ⟨made, _, rfl⟩ := map_eq_ok_iff.mp reads
    exact settles_print_template registered _ made
  | prose =>
    obtain ⟨passages, _, rfl⟩ := map_eq_ok_iff.mp reads
    exact settles_print_prose registered inner passages

end

/-! ## Parsing and formatting -/

theorem capabilities_eq : ∃ inner, Script.capabilities = rules (rules (rules inner)) := ⟨_, rfl⟩

section
variable {language : Language} {options : Options kit}

/-- A parse gives the tree of the document that is read, or fails with what reading fails with, framed. -/
theorem answer_parse_of_alone (alone : Alone language options) (pipeline : Pipeline) (text : List Char)
    (world : World Script.Journal) :
    answer (pipeline.parse Script.capabilities (.ofList text) ⟨options, world⟩) =
      ((Document.read language text).mapError fun fault => fault.framed pipeline.frame (.ofList text)).map
        fun document => ⟨.ofList text, document.tree⟩ := by
  obtain ⟨inner, same⟩ := capabilities_eq
  rw [same]
  have registered : { options with committed := some (.ofList text) : Options kit }.registry.plugins = [languages] :=
    alone.plugins
  obtain ⟨succeeds, fails⟩ := parse_of_alone alone (settles_parse registered inner language text) pipeline world
  cases reads : Document.read language text with
  | ok document =>
    rw [reads] at succeeds
    obtain ⟨last, parsed⟩ := succeeds document.tree rfl
    rw [parsed]
    rfl
  | error fault =>
    rw [reads] at fails
    obtain ⟨after, failed⟩ := fails fault rfl
    rw [failed]
    rfl

/-- Formatting gives the text of the document that is read. -/
theorem answer_format_of_alone (alone : Alone language options) (pipeline : Pipeline) (text : List Char)
    (world : World Script.Journal) :
    answer (pipeline.format Script.capabilities (.ofList text) ⟨options, world⟩) =
      ((Document.read language text).mapError fun fault => fault.framed pipeline.frame (.ofList text)).map
        fun document => .ofList document.chars := by
  obtain ⟨inner, same⟩ := capabilities_eq
  rw [same]
  have registered : { options with committed := some (.ofList text) : Options kit }.registry.plugins = [languages] :=
    alone.plugins
  obtain ⟨succeeds, fails⟩ := parse_of_alone alone (settles_parse registered inner language text) pipeline world
  cases reads : Document.read language text with
  | ok document =>
    rw [reads] at succeeds
    obtain ⟨last, parsed⟩ := succeeds document.tree rfl
    obtain ⟨parser, found, resolves, formats⟩ := format_eq_of_parse_ok parsed
    obtain ⟨_, own⟩ := resolveParser_of_languages alone.plugins language (entered ⟨options, world⟩)
    rw [← alone.parser] at own
    cases own.symm.trans resolves
    have prints := settles_printOn registered (rules (rules inner)) language.treeFormat
      (settles_print registered reads)
    rw [formats, answer_ofAction]
    exact prints last
  | error fault =>
    rw [reads] at fails
    obtain ⟨after, failed⟩ := fails fault rfl
    rw [format_eq_error_of_parse failed]
    rfl

theorem answer_parse_eq_ok_iff (alone : Alone language options) (pipeline : Pipeline) {raw : String}
    {world : World Script.Journal} {parsed : Parsed} :
    answer (pipeline.parse Script.capabilities raw ⟨options, world⟩) = .ok parsed ↔
      ∃ document, Document.read language raw.toList = .ok document ∧ ⟨raw, document.tree⟩ = parsed := by
  have answers := answer_parse_of_alone alone pipeline raw.toList world
  rw [String.ofList_toList] at answers
  rw [answers]
  exact mapError_map_eq_ok_iff

theorem answer_format_eq_ok_iff (alone : Alone language options) (pipeline : Pipeline) {raw output : String}
    {world : World Script.Journal} :
    answer (pipeline.format Script.capabilities raw ⟨options, world⟩) = .ok output ↔
      ∃ document, Document.read language raw.toList = .ok document ∧ .ofList document.chars = output := by
  have answers := answer_format_of_alone alone pipeline raw.toList world
  rw [String.ofList_toList] at answers
  rw [answers]
  exact mapError_map_eq_ok_iff

end

end Language

end Polyglot
