import Polyglot.Proofs.Answers
import Polyglot.Proofs.Rereading
import Polyglot.Proofs.Slices

/-!
# Reading by offsets

The languages of declarations, of expressions and of templates, read through offsets into their text: a word is sought,
offsets are added up, and what stands between two of them is taken as a slice. No offsets ever name anything but
a slice of the text, and what is read, or refused, is what cutting the text reads and refuses (`declaration_eq`,
`expression_eq`, `template_eq`).
-/

namespace Polyglot

namespace Language

open Json.Reader (byteCount)
open Answers (ok_bind)

/-- What is wrong with a text at an offset, and the position that is reported for it. -/
structure Refusal where
  text : List Char
  offset : Nat
  message : String
  position : Position
  deriving DecidableEq

/-- Why reading stops: at offsets between which there is no slice of a text, or with a refusal. -/
inductive Halt
  | noSlice (text : List Char) (start stop : Nat)
  | refusal (refusal : Refusal)

/-- A problem with its offset in bytes. -/
def Problem.refusal (text : List Char) (problem : Problem) : Refusal :=
  ⟨text, byteCount (text.take problem.offset), problem.message, .after (text.take problem.offset)⟩

/-- What is read of a text, or the refusal of a problem in it. -/
def refused {α : Type} (text : List Char) (outcome : Except Problem α) : Except Halt α :=
  outcome.mapError fun problem => .refusal (problem.refusal text)

namespace Offsets

/-! ## The readings -/

/-- The part of a text between two offsets. -/
def slice (text : List Char) (start stop : Nat) : Except Halt (List Char) :=
  match Text.slice? text start stop with
  | some part => .ok part
  | none => .error (.noSlice text start stop)

/-- Refuses a text, with the position of an offset in it. -/
def unexpected {α : Type} (text : List Char) (offset : Nat) (message : String) : Except Halt α := do
  let before ← slice text 0 offset
  throw (.refusal ⟨text, offset, message, .after before⟩)

/-- Reads an object literal between two offsets. -/
def object (text : List Char) (start stop : Nat) : Except Halt ObjectLiteral := do
  let part ← slice text start stop
  let opening := start + (byteCount part - byteCount (Text.trimStart part))
  match ObjectLiteral.inner? (Text.trim part) with
  | none => unexpected text opening "Expected an object literal."
  | some inner =>
    match Text.splitAtFirst [':'] inner with
    | none => unexpected text opening "Expected `key:value`."
    | some (key, value) => pure ⟨Text.trim key, Text.trim value⟩

/-- Reads a declaration. -/
def declaration (text : List Char) : Except Halt Declaration := do
  let source := Text.trimEnd text
  if (Text.dropWord Declaration.keyword source).isNone then unexpected text 0 "Expected `let`."
  else
    match Text.find? ['='] source with
    | none => unexpected text (byteCount source) "Expected `=`."
    | some equals =>
      match Text.dropEndWord [';'] source with
      | none => unexpected text (byteCount source) "Missing semicolon."
      | some ended => do
        let init ← object text (equals + 1) (byteCount ended)
        let name ← slice source 4 equals
        pure ⟨Text.trim name, init⟩

/-- Reads an expression. -/
def expression (text : List Char) : Except Halt ObjectLiteral := object text 0 (byteCount text)

/-- Reads a template, and the expression of its binding as a text of its own. -/
def template (text : List Char) : Except Halt Styled :=
  match Text.find? Template.binding text with
  | none => pure (.plain text)
  | some opening => do
    let start := opening + byteCount Template.binding
    let rest ← slice text start (byteCount text)
    match Text.find? ['"'] rest with
    | none => unexpected text opening "Unterminated attribute."
    | some index => do
      let close := start + index
      let literal ← expression (← slice text start close)
      let before ← slice text 0 start
      let after ← slice text close (byteCount text)
      pure (.bound before literal after)

/-! ## Slices -/

section
variable {text front part rear : List Char}

theorem slice_of_append (whole : text = front ++ part ++ rear) :
    slice text (byteCount front) (byteCount (front ++ part)) = .ok part := by
  have found := Text.slice?_eq_some_iff.mpr ⟨front, rear, whole, rfl, rfl⟩
  rw [slice, found]

theorem slice_to_end (whole : text = front ++ rear) : slice text (byteCount front) (byteCount text) = .ok rear := by
  rw [whole]
  exact slice_of_append (List.append_nil _).symm

theorem slice_from_start (whole : text = front ++ rear) : slice text 0 (byteCount front) = .ok front :=
  slice_of_append ((List.nil_append front).symm ▸ whole)

/-- A refusal at the end of some part of a text from its beginning. -/
theorem unexpected_eq {α : Type} (whole : text = front ++ rear) (message : String) :
    (unexpected text (byteCount front) message : Except Halt α) = refused text (.error ⟨front.length, message⟩) := by
  have taken : text.take front.length = front := by rw [whole, List.take_left]
  rw [unexpected, slice_from_start whole]
  simp only [refused, Except.mapError, Problem.refusal, taken]
  rfl

end

/-! ## Object literals -/

theorem byteCount_takeWhile_isBlank (text : List Char) :
    byteCount (text.takeWhile Text.isBlank) = byteCount text - byteCount (Text.trimStart text) := by
  have whole : byteCount (text.takeWhile Text.isBlank ++ Text.trimStart text) = byteCount text :=
    congrArg byteCount List.takeWhile_append_dropWhile
  rw [Text.byteCount_append] at whole
  omega

/-- Between two offsets, a literal is read as in a text of its own, and what is wrong with it is told of the
whole text. -/
theorem object_eq {text front part rear : List Char} (whole : text = front ++ part ++ rear) :
    object text (byteCount front) (byteCount (front ++ part)) =
      refused text ((ObjectLiteral.parse part).mapError (Problem.shift front.length)) := by
  have blanks : text = (front ++ part.takeWhile Text.isBlank) ++ (Text.trimStart part ++ rear) := by
    rw [whole, List.append_assoc, List.append_assoc, ← List.append_assoc (part.takeWhile Text.isBlank)]
    rw [Text.trimStart, List.takeWhile_append_dropWhile]
  have opening (message : String) :
      (unexpected text (byteCount front + (byteCount part - byteCount (Text.trimStart part))) message :
        Except Halt ObjectLiteral) =
      refused text (.error ⟨front.length + (part.takeWhile Text.isBlank).length, message⟩) := by
    rw [← byteCount_takeWhile_isBlank, ← Text.byteCount_append, ← List.length_append]
    exact unexpected_eq blanks message
  rw [object, slice_of_append whole]
  simp only [ok_bind, opening, ObjectLiteral.parse]
  cases ObjectLiteral.inner? (Text.trim part) with
  | none => rfl
  | some inner =>
    cases split : Text.splitAtFirst [':'] inner with
    | none => simp only [split]; rfl
    | some parts => simp only [split]; rfl

theorem expression_eq (text : List Char) : expression text = refused text (ObjectLiteral.parse text) := by
  have whole : text = [] ++ text ++ [] := (List.append_nil text).symm
  have reads := object_eq whole
  have unshifted : (ObjectLiteral.parse text).mapError (Problem.shift 0) = ObjectLiteral.parse text := by
    cases ObjectLiteral.parse text with
    | ok literal => rfl
    | error problem => simp [Except.mapError, Problem.shift]
  rw [List.length_nil, unshifted] at reads
  exact reads

/-! ## Declarations -/

/-- The first equals sign of a declaration is the first after its keyword. -/
theorem splitAtFirst_keyword_append (rest : List Char) :
    Text.splitAtFirst ['='] (Declaration.keyword ++ rest) =
      (Text.splitAtFirst ['='] rest).map fun (name, after) => (Declaration.keyword ++ name, after) := by
  cases found : Text.splitAtFirst ['='] rest with
  | none =>
    rw [Text.splitAtFirst_eq_none_iff, List.singleton_infix_iff] at found
    rw [Option.map_none, Text.splitAtFirst_eq_none_iff, List.singleton_infix_iff, List.mem_append, not_or]
    exact ⟨by decide, found⟩
  | some parts =>
    obtain ⟨rfl, free⟩ := Text.splitAtFirst_singleton_eq_some_iff.mp found
    rw [Option.map_some, Text.splitAtFirst_singleton_eq_some_iff, List.mem_append, not_or]
    exact ⟨by simp, by decide, free⟩

/-- The semicolon of a declaration is not its equals sign. -/
theorem dropEndWord_semicolon (front rest : List Char) :
    Text.dropEndWord [';'] (front ++ ['='] ++ rest) =
      (Text.dropEndWord [';'] rest).map fun init => front ++ ['='] ++ init := by
  have back : (front ++ ['='] ++ rest).reverse = rest.reverse ++ '=' :: front.reverse := by simp
  have semicolon : [';'].reverse = [';'] := rfl
  rw [Text.dropEndWord, Text.dropEndWord, back, semicolon]
  cases rest.reverse with
  | nil => rfl
  | cons c before =>
    by_cases same : ';' = c <;> simp [Text.dropWord, same]

theorem declaration_eq (text : List Char) : declaration text = refused text (Declaration.parse text) := by
  obtain ⟨blanks, whole⟩ := Text.prefix_of_trimEnd text
  have atEnd (message : String) : (unexpected text (byteCount (Text.trimEnd text)) message : Except Halt Declaration) =
      refused text (.error ⟨(Text.trimEnd text).length, message⟩) := unexpected_eq whole.symm message
  cases begins : Text.dropWord Declaration.keyword (Text.trimEnd text) with
  | none =>
    simp only [declaration, Declaration.parse, begins]
    exact unexpected_eq (List.nil_append text).symm "Expected `let`."
  | some rest =>
    have source := Text.dropWord_eq_some_iff.mp begins
    have found := splitAtFirst_keyword_append rest
    rw [← source] at found
    cases equals : Text.splitAtFirst ['='] rest with
    | none =>
      rw [equals, Option.map_none] at found
      simp only [declaration, Declaration.parse, begins, equals, Text.find?, found]
      exact atEnd "Expected `=`."
    | some parts =>
      obtain ⟨name, after⟩ := parts
      rw [equals, Option.map_some] at found
      have apart := Text.eq_append_of_splitAtFirst found
      have ends := dropEndWord_semicolon (Declaration.keyword ++ name) after
      rw [← apart] at ends
      cases semicolon : Text.dropEndWord [';'] after with
      | none =>
        rw [semicolon, Option.map_none] at ends
        simp only [declaration, Declaration.parse, begins, equals, semicolon, Text.find?, found, ends]
        exact atEnd "Missing semicolon."
      | some init =>
        rw [semicolon, Option.map_some] at ends
        obtain rfl := Text.dropEndWord_eq_some_iff.mp semicolon
        have part : text = Declaration.keyword ++ name ++ ['='] ++ init ++ (';' :: blanks) := by
          rw [← whole, apart]
          simp
        have reads := object_eq part
        have start : byteCount (Declaration.keyword ++ name) + 1 = byteCount (Declaration.keyword ++ name ++ ['=']) :=
          (Text.byteCount_append _ ['=']).symm
        have names : slice (Text.trimEnd text) 4 (byteCount (Declaration.keyword ++ name)) = .ok name :=
          slice_of_append (apart.trans (List.append_assoc _ _ _))
        rw [← start, List.length_append, List.length_append] at reads
        simp only [declaration, Declaration.parse, begins, equals, semicolon, Text.find?, found, ends]
        show (object text (byteCount (Declaration.keyword ++ name) + 1) _ >>= fun literal =>
          slice (Text.trimEnd text) 4 (byteCount (Declaration.keyword ++ name)) >>= fun name => _) = _
        rw [reads, names]
        cases ObjectLiteral.parse init <;> rfl

/-! ## Templates -/

/-- A template is cut at the same places, and its expression refused as a text of its own. -/
theorem template_eq (text : List Char) :
    template text = (refused text (Template.parse text)).bind fun cut =>
      match cut with
      | .plain text => .ok (.plain text)
      | .bound before inner after =>
        (refused inner (ObjectLiteral.parse inner)).map fun literal => .bound before literal after := by
  cases opens : Text.splitAtFirst Template.binding text with
  | none =>
    simp only [template, Template.parse, Text.find?, opens]
    rfl
  | some parts =>
    obtain ⟨front, rest⟩ := parts
    have whole := Text.eq_append_of_splitAtFirst opens
    have start : byteCount front + byteCount Template.binding = byteCount (front ++ Template.binding) :=
      (Text.byteCount_append front Template.binding).symm
    simp only [template, Template.parse, Text.find?, opens, Option.map_some, start, slice_to_end whole, ok_bind]
    cases closes : Text.splitAtFirst ['"'] rest with
    | none =>
      rw [List.append_assoc] at whole
      simp only [Option.map_none]
      exact unexpected_eq whole "Unterminated attribute."
    | some parts =>
      obtain ⟨inner, after⟩ := parts
      obtain rfl := Text.eq_append_of_splitAtFirst closes
      have cut : text = front ++ Template.binding ++ inner ++ ('"' :: after) := by
        rw [whole]
        simp
      have close : byteCount (front ++ Template.binding) + byteCount inner =
          byteCount (front ++ Template.binding ++ inner) := (Text.byteCount_append _ inner).symm
      simp only [Option.map_some, close, slice_of_append cut, slice_from_start whole, slice_to_end cut, ok_bind,
        expression_eq]
      show _ = (refused inner (ObjectLiteral.parse inner)).map _
      cases ObjectLiteral.parse inner <;> rfl

end Offsets

end Language

end Polyglot
