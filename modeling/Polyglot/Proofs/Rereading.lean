import Polyglot.Proofs.Documents
import Polyglot.Proofs.Trimming

/-!
# Rereading

What a language prints, the same language reads. A declaration or an object literal that was read is read again from
its own text (`Declaration.parse_chars`), so its tree is what a parse of the printed text gives
(`reread_of_estree`). A template is cut at another place only where blanks at its end are gone, and is printed as
before (`format_format_of_template`).
-/

namespace Polyglot

namespace Language

open Outcome Text
open Answers (map_eq_ok_iff mapError_eq_ok_iff)

theorem located_eq_ok_iff {α : Type} {text : List Char} {outcome : Except Problem α} {value : α} :
    located text outcome = .ok value ↔ outcome = .ok value :=
  mapError_eq_ok_iff

theorem embedded_eq_ok_iff {α : Type} {text : List Char} {outcome : Except Fault α} {value : α} :
    embedded text outcome = .ok value ↔ outcome = .ok value :=
  mapError_eq_ok_iff

/-! ## Object literals -/

namespace ObjectLiteral

variable {text : List Char} {literal : ObjectLiteral}

theorem inner?_eq_some_iff {inner : List Char} : inner? text = some inner ↔ text = '{' :: inner ++ ['}'] := by
  simp only [inner?, Option.bind_eq_some_iff, dropWord_eq_some_iff, dropEndWord_eq_some_iff]
  constructor
  · rintro ⟨rest, rfl, rfl⟩
    rfl
  · rintro rfl
    exact ⟨_, rfl, rfl⟩

/-- What is read: between the braces, the key before the first colon and the value after it. -/
theorem parse_eq_ok_iff :
    parse text = .ok literal ↔
      ∃ key value, trim text = '{' :: (key ++ ':' :: value) ++ ['}'] ∧ ':' ∉ key ∧ literal = ⟨trim key, trim value⟩ := by
  constructor
  · intro reads
    simp only [parse] at reads
    split at reads
    · cases reads
    · next inner braces =>
      split at reads
      · cases reads
      · next key value split =>
        obtain ⟨rfl, first⟩ := splitAtFirst_singleton_eq_some_iff.mp split
        cases reads
        exact ⟨key, value, inner?_eq_some_iff.mp braces, first, rfl⟩
  · rintro ⟨key, value, braces, first, rfl⟩
    simp only [parse, inner?_eq_some_iff.mpr braces, splitAtFirst_singleton_eq_some_iff.mpr ⟨rfl, first⟩]

/-- What a literal that was read looks like. -/
structure Readable (literal : ObjectLiteral) : Prop where
  key_trimmed : trim literal.key = literal.key
  value_trimmed : trim literal.value = literal.value
  key_free : ':' ∉ literal.key

theorem readable_of_parse (reads : parse text = .ok literal) : literal.Readable := by
  obtain ⟨key, value, _, first, rfl⟩ := parse_eq_ok_iff.mp reads
  exact ⟨trim_trim key, trim_trim value, fun inside => first ((infix_of_trim key).subset inside)⟩

/-- Blanks around the text of a literal do not count. -/
theorem parse_of_trim_eq_chars (readable : literal.Readable) (same : trim text = literal.chars) :
    parse text = .ok literal := by
  refine parse_eq_ok_iff.mpr ⟨' ' :: literal.key, ' ' :: literal.value ++ [' '], ?_, ?_, ?_⟩
  · rw [same]
    simp [chars]
  · intro inside
    rcases List.mem_cons.mp inside with blank | inside
    · cases blank
    · exact readable.key_free inside
  · have key : trim (' ' :: literal.key) = literal.key := by rw [trim_space_cons, readable.key_trimmed]
    have value : trim (' ' :: literal.value ++ [' ']) = literal.value := by
      rw [trim_append_space, trim_space_cons, readable.value_trimmed]
    rw [key, value]

theorem trim_chars (literal : ObjectLiteral) : trim literal.chars = literal.chars := by
  have braces : literal.chars = '{' :: (' ' :: literal.key ++ [':', ' '] ++ literal.value ++ [' ']) ++ ['}'] := by
    simp [chars]
  rw [braces]
  exact trim_of_visible rfl rfl _

theorem parse_chars (readable : literal.Readable) : parse literal.chars = .ok literal :=
  parse_of_trim_eq_chars readable literal.trim_chars

/-- A character that the text has not and the printer does not write is not in what is printed. -/
theorem not_mem_chars_of_parse (reads : parse text = .ok literal) {c : Char} (free : c ∉ text)
    (other : c ∉ ['{', ' ', ':', '}']) : c ∉ literal.chars := by
  obtain ⟨key, value, braces, _, rfl⟩ := parse_eq_ok_iff.mp reads
  have within : ∀ d ∈ '{' :: (key ++ ':' :: value) ++ ['}'], d ∈ text := fun d inside =>
    (infix_of_trim text).subset (braces ▸ inside)
  have keyFree : c ∉ trim key := fun inside => free (within c (by simp [(infix_of_trim key).subset inside]))
  have valueFree : c ∉ trim value := fun inside => free (within c (by simp [(infix_of_trim value).subset inside]))
  simp only [List.mem_cons, List.not_mem_nil, or_false, not_or] at other
  simp [chars, other, keyFree, valueFree]

end ObjectLiteral

/-! ## Declarations -/

namespace Declaration

variable {text : List Char} {declaration : Declaration}

theorem parse_eq_ok_iff :
    parse text = .ok declaration ↔
      ∃ name init literal, trimEnd text = keyword ++ name ++ '=' :: init ++ [';'] ∧ '=' ∉ name ∧
        ObjectLiteral.parse init = .ok literal ∧ declaration = ⟨trim name, literal⟩ := by
  constructor
  · intro reads
    simp only [parse] at reads
    split at reads
    · cases reads
    · next rest begins =>
      split at reads
      · cases reads
      · next name rest split =>
        split at reads
        · cases reads
        · next init ends =>
          split at reads
          · cases reads
          · next literal inner =>
            obtain ⟨rfl, first⟩ := splitAtFirst_singleton_eq_some_iff.mp split
            obtain rfl := dropEndWord_eq_some_iff.mp ends
            cases reads
            refine ⟨name, init, literal, ?_, first, inner, rfl⟩
            rw [dropWord_eq_some_iff.mp begins]
            simp
  · rintro ⟨name, init, literal, whole, first, inner, rfl⟩
    have begins : dropWord keyword (trimEnd text) = some (name ++ '=' :: (init ++ [';'])) := by
      rw [whole]
      exact dropWord_eq_some_iff.mpr (by simp)
    simp only [parse, begins, splitAtFirst_singleton_eq_some_iff.mpr ⟨rfl, first⟩,
      dropEndWord_eq_some_iff.mpr rfl, inner]

/-- What a declaration that was read looks like. -/
structure Readable (declaration : Declaration) : Prop where
  name_trimmed : trim declaration.name = declaration.name
  name_free : '=' ∉ declaration.name
  init_readable : declaration.init.Readable

theorem readable_of_parse (reads : parse text = .ok declaration) : declaration.Readable := by
  obtain ⟨name, init, literal, _, first, inner, rfl⟩ := parse_eq_ok_iff.mp reads
  exact ⟨trim_trim name, fun inside => first ((infix_of_trim name).subset inside),
    ObjectLiteral.readable_of_parse inner⟩

theorem trimEnd_chars (declaration : Declaration) : trimEnd declaration.chars = declaration.chars :=
  trimEnd_concat_of_visible rfl _

theorem parse_of_trimEnd_eq_chars (readable : declaration.Readable) (same : trimEnd text = declaration.chars) :
    parse text = .ok declaration := by
  refine parse_eq_ok_iff.mpr ⟨declaration.name ++ [' '], ' ' :: declaration.init.chars, declaration.init, ?_, ?_, ?_, ?_⟩
  · rw [same]
    simp [chars]
  · intro inside
    rcases List.mem_append.mp inside with inside | blank
    · exact readable.name_free inside
    · cases List.mem_singleton.mp blank
  · have blank : trim (' ' :: declaration.init.chars) = declaration.init.chars := by
      rw [trim_space_cons, ObjectLiteral.trim_chars]
    exact ObjectLiteral.parse_of_trim_eq_chars readable.init_readable blank
  · have name : trim (declaration.name ++ [' ']) = declaration.name := by
      rw [trim_append_space, readable.name_trimmed]
    rw [name]

theorem parse_chars (readable : declaration.Readable) : parse declaration.chars = .ok declaration :=
  parse_of_trimEnd_eq_chars readable declaration.trimEnd_chars

end Declaration

/-! ## Templates -/

namespace Template

theorem binding_ne_nil : binding ≠ [] := List.cons_ne_nil _ _

/-- Neither the end of a text that is trimmed nor a newline there makes a binding. -/
theorem not_binding_infix_of_trimEnd {text : List Char} (free : ¬ binding <:+: text) :
    ¬ binding <:+: trimEnd text ++ ['\n'] := by
  rw [List.infix_concat_iff, not_or]
  constructor
  · intro atEnd
    rcases List.suffix_concat_iff.mp atEnd with empty | ⟨front, last, _⟩
    · exact binding_ne_nil empty
    · have ends := congrArg List.getLast? last
      rw [List.getLast?_concat] at ends
      cases ends
  · exact fun inside => free (inside.trans (prefix_of_trimEnd text).isInfix)

end Template

namespace Styled

variable {text : List Char} {template : Styled}

/-- What is read: no binding, or the first one with an object literal up to the next quote. -/
theorem read_eq_ok_iff :
    read text = .ok template ↔
      (¬ Template.binding <:+: text ∧ template = .plain text) ∨
      ∃ front inner after literal, splitAtFirst Template.binding text = some (front, inner ++ '"' :: after) ∧
        '"' ∉ inner ∧ ObjectLiteral.parse inner = .ok literal ∧
        template = .bound (front ++ Template.binding) literal ('"' :: after) := by
  constructor
  · intro reads
    unfold read Template.parse at reads
    cases first : splitAtFirst Template.binding text with
    | none =>
      simp only [first] at reads
      cases reads
      exact .inl ⟨splitAtFirst_eq_none_iff.mp first, rfl⟩
    | some parts =>
      obtain ⟨front, rest⟩ := parts
      cases closing : splitAtFirst ['"'] rest with
      | none => simp [first, closing] at reads
      | some parts =>
        obtain ⟨inner, after⟩ := parts
        simp only [first, closing] at reads
        obtain ⟨literal, inside, rfl⟩ := map_eq_ok_iff.mp reads
        obtain ⟨rfl, free⟩ := splitAtFirst_singleton_eq_some_iff.mp closing
        have parsed := located_eq_ok_iff.mp (embedded_eq_ok_iff.mp inside)
        exact .inr ⟨front, inner, after, literal, rfl, free, parsed, rfl⟩
  · rintro (⟨free, rfl⟩ | ⟨front, inner, after, literal, first, free, parsed, rfl⟩)
    · simp only [read, Template.parse, splitAtFirst_eq_none_iff.mpr free]
    · simp only [read, Template.parse, first, splitAtFirst_singleton_eq_some_iff.mpr ⟨rfl, free⟩, parsed]
      rfl

theorem chars_plain (text : List Char) : (plain text).chars = trimEnd text ++ ['\n'] := by
  simp [chars, Template.chars]

/-- The closing quote is visible, so only what follows it is trimmed. -/
theorem chars_bound (before : List Char) (literal : ObjectLiteral) (after : List Char) :
    (bound before literal ('"' :: after)).chars = before ++ (literal.chars ++ '"' :: (trimEnd after ++ ['\n'])) := by
  have visible : isBlank '"' = false := rfl
  rw [chars, Template.chars, trimEnd_append_of_visible visible]
  simp

/-- The text of a template that was read is read as a template with the same text. -/
theorem read_chars (reads : read text = .ok template) :
    ∃ again, read template.chars = .ok again ∧ again.chars = template.chars := by
  rcases read_eq_ok_iff.mp reads with ⟨free, rfl⟩ | ⟨front, inner, after, literal, first, free, parsed, rfl⟩
  · rw [chars_plain]
    refine ⟨.plain (trimEnd text ++ ['\n']), read_eq_ok_iff.mpr (.inl ⟨?_, rfl⟩), ?_⟩
    · exact Template.not_binding_infix_of_trimEnd free
    · rw [chars_plain, trimEnd_append_newline, trimEnd_trimEnd]
  · have readable := ObjectLiteral.readable_of_parse parsed
    have inside : '"' ∉ literal.chars := ObjectLiteral.not_mem_chars_of_parse parsed free (by decide)
    have rest := splitAtFirst_of_other_after Template.binding_ne_nil first
      (literal.chars ++ '"' :: (trimEnd after ++ ['\n']))
    rw [chars_bound]
    refine ⟨.bound (front ++ Template.binding) literal ('"' :: (trimEnd after ++ ['\n'])),
      read_eq_ok_iff.mpr (.inr ⟨_, _, _, literal, rest, inside, ObjectLiteral.parse_chars readable, rfl⟩), ?_⟩
    rw [chars_bound, trimEnd_append_newline, trimEnd_trimEnd]

end Styled

/-! ## Documents -/

namespace Document

variable {language : Language} {text : List Char} {document : Document}

theorem read_chars_of_estree (estree : language.treeFormat = .estree) (reads : read language text = .ok document) :
    read language document.chars = .ok document := by
  cases language with
  | declaration =>
    obtain ⟨made, found, rfl⟩ := map_eq_ok_iff.mp reads
    have parsed := located_eq_ok_iff.mp found
    simp only [read, chars, Declaration.parse_chars (Declaration.readable_of_parse parsed)]
    rfl
  | expression =>
    obtain ⟨literal, found, rfl⟩ := map_eq_ok_iff.mp reads
    have parsed := located_eq_ok_iff.mp found
    simp only [read, chars, ObjectLiteral.parse_chars (ObjectLiteral.readable_of_parse parsed)]
    rfl
  | template => cases estree
  | prose => cases estree

theorem read_chars_of_template (reads : read .template text = .ok document) :
    ∃ again, read .template document.chars = .ok again ∧ again.chars = document.chars := by
  obtain ⟨template, found, rfl⟩ := map_eq_ok_iff.mp reads
  obtain ⟨again, rereads, same⟩ := Styled.read_chars found
  exact ⟨.template again, map_eq_ok_iff.mpr ⟨again, rereads, rfl⟩, same⟩

end Document

open Script (kit languages)

section
variable {options : Options kit} {pipeline : Pipeline} {raw : String} {world : World Script.Journal}

/-- Where a text is parsed as a declaration or as an expression, it is formatted, and what it is formatted to is
    parsed to the same tree and is formatted to itself, in whatever options of the language and after whatever else
    was done. -/
theorem reread_of_estree {language : Language} (estree : language.treeFormat = .estree)
    (alone : Alone language options) {parsed : Parsed} {after : Invocation kit}
    (parses : pipeline.parse Script.capabilities raw ⟨options, world⟩ = .ok parsed after) :
    ∃ output, ∀ (other : Pipeline) (again : Options kit) (later : World Script.Journal), Alone language again →
      answer (other.format Script.capabilities raw ⟨again, later⟩) = .ok output ∧
      answer (other.parse Script.capabilities output ⟨again, later⟩) = .ok ⟨output, parsed.tree⟩ ∧
      answer (other.format Script.capabilities output ⟨again, later⟩) = .ok output := by
  obtain ⟨document, reads, rfl⟩ := (answer_parse_eq_ok_iff alone pipeline).mp (answer_eq_ok_iff.mpr ⟨after, parses⟩)
  have rereads : Document.read language (String.ofList document.chars).toList = .ok document := by
    rw [String.toList_ofList]
    exact Document.read_chars_of_estree estree reads
  refine ⟨.ofList document.chars, fun other again later alone => ⟨?_, ?_, ?_⟩⟩
  · exact (answer_format_eq_ok_iff alone other).mpr ⟨document, reads, rfl⟩
  · exact (answer_parse_eq_ok_iff alone other).mpr ⟨document, rereads, rfl⟩
  · exact (answer_format_eq_ok_iff alone other).mpr ⟨document, rereads, rfl⟩

/-- A declaration with a brace, a semicolon and a newline in its name, with a no-break space, an equals sign and a
    semicolon in its key, and with a colon, an equals sign and braces in its value. -/
def crowded : String := "let a\x7b;\nb= \x7bk\u00a0=; : v:=\x7d \x7d;\x7d; \n"

def crowdedOutput : String := "let a\x7b;\nb = \x7b k\u00a0=;: v:=\x7d \x7d; \x7d;"

theorem reread_crowded :
    ∃ parsed after,
      Pipeline.parse {} Script.capabilities crowded ⟨fresh .declaration, { state := {} }⟩ = .ok parsed after ∧
      ∀ (other : Pipeline) (again : Options kit) (later : World Script.Journal), Alone .declaration again →
        answer (other.format Script.capabilities crowded ⟨again, later⟩) = .ok crowdedOutput ∧
        answer (other.parse Script.capabilities crowdedOutput ⟨again, later⟩) = .ok ⟨crowdedOutput, parsed.tree⟩ ∧
        answer (other.format Script.capabilities crowdedOutput ⟨again, later⟩) = .ok crowdedOutput := by
  have alone := alone_fresh .declaration
  have start : World Script.Journal := { state := {} }
  have reads : Document.read .declaration crowded.toList =
      .ok (.declaration ⟨"a\x7b;\nb".toList, "k\u00a0=;".toList, "v:=\x7d \x7d;".toList⟩) := rfl
  obtain ⟨after, parses⟩ := answer_eq_ok_iff.mp ((answer_parse_eq_ok_iff alone {}).mpr ⟨_, reads, rfl⟩)
  obtain ⟨output, rereads⟩ := reread_of_estree rfl alone parses
  have formats : answer (Pipeline.format {} Script.capabilities crowded ⟨fresh .declaration, start⟩) =
      .ok crowdedOutput := (answer_format_eq_ok_iff alone {}).mpr ⟨_, reads, rfl⟩
  obtain ⟨given, _⟩ := rereads {} (fresh .declaration) start alone
  cases formats.symm.trans given
  exact ⟨_, after, parses, rereads⟩

/-- What a template is formatted to is formatted to itself. -/
theorem reformat_of_template (alone : Alone .template options) {output : String} {after : Invocation kit}
    (formats : pipeline.format Script.capabilities raw ⟨options, world⟩ = .ok output after)
    (other : Pipeline) {again : Options kit} (still : Alone .template again) (later : World Script.Journal) :
    ∃ last, other.format Script.capabilities output ⟨again, later⟩ = .ok output last := by
  obtain ⟨document, reads, rfl⟩ :=
    (answer_format_eq_ok_iff alone pipeline).mp (answer_eq_ok_iff.mpr ⟨after, formats⟩)
  obtain ⟨reread, rereads, same⟩ := Document.read_chars_of_template reads
  refine answer_eq_ok_iff.mp ((answer_format_eq_ok_iff still other).mpr ⟨reread, ?_, congrArg String.ofList same⟩)
  rw [String.toList_ofList]
  exact rereads

/-- Two bindings, of which the second is plain text, a newline in the first, and other blanks at the end. -/
def styledTwice : String := "<p :style=\"\x7ba\n:b  \x7d \">\u00a0:style=\"</p> \n\u2003\n"

def styledTwiceOutput : String := "<p :style=\"\x7b a: b \x7d\">\u00a0:style=\"</p>\n"

theorem reformat_styledTwice :
    ∃ after, Pipeline.format {} Script.capabilities styledTwice ⟨fresh .template, { state := {} }⟩ =
        .ok styledTwiceOutput after ∧
      ∀ (other : Pipeline) (again : Options kit) (later : World Script.Journal), Alone .template again →
        ∃ last, other.format Script.capabilities styledTwiceOutput ⟨again, later⟩ = .ok styledTwiceOutput last := by
  have alone := alone_fresh .template
  have reads : Document.read .template styledTwice.toList =
      .ok (.template (.bound "<p :style=\"".toList ⟨['a'], ['b']⟩ "\">\u00a0:style=\"</p> \n\u2003\n".toList)) := rfl
  obtain ⟨after, formats⟩ : ∃ after,
      Pipeline.format {} Script.capabilities styledTwice ⟨fresh .template, { state := {} }⟩ =
        .ok styledTwiceOutput after :=
    answer_eq_ok_iff.mp ((answer_format_eq_ok_iff alone {}).mpr ⟨_, reads, rfl⟩)
  exact ⟨after, formats, fun other _ later still => reformat_of_template alone formats other still later⟩

end

end Language

end Polyglot
