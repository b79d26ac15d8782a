import Polyglot.Proofs.Answers
import Polyglot.Proofs.Blocks
import Polyglot.Proofs.Rereading

/-!
# Fences around code

What prose is formatted to is read as the blocks that were printed, and formatted to itself, as long as no line of it
ends with `"\r\n"` and no line of printed code is a fence (`reformat_of_prose`). Such lines come of trimming: a line
that is a fence with blanks after it does not close a block, but loses the blanks where it is the last line of the code;
and of two carriage returns at the end of a line the first is text.
-/

namespace Polyglot

namespace Language

open Outcome Text
open Answers (map_eq_ok_iff mapM_eq_ok_iff)

/-! ## Code that is printed -/

namespace Block

/-- Whether there is a line of code that is a fence. -/
def HoldsFence : Block → Prop
  | .prose _ => False
  | .code _ text => fence ∈ pieces text

instance (block : Block) : Decidable block.HoldsFence :=
  match block with
  | .prose _ => .isFalse id
  | .code _ text => inferInstanceAs (Decidable (fence ∈ pieces text))

theorem not_holdsFence_of_laid {block : Block} (laid : block.Laid) : ¬ block.HoldsFence := by
  cases laid with
  | prose => exact id
  | code named inside =>
    rw [HoldsFence, pieces_joined fun line among => (inside line among).1, List.mem_append]
    rintro (among | last)
    · exact (inside _ among).2 rfl
    · cases List.mem_singleton.mp last

theorem laid_ended {language text : List Char} (named : '\n' ∉ language)
    (whole : ¬ (code language (ended text)).HoldsFence) : (code language (ended text)).Laid := by
  rw [← joined_pieces] at whole ⊢
  have free : ∀ line ∈ pieces text, '\n' ∉ line := fun _ among => newline_not_mem_piece among
  rw [HoldsFence, pieces_joined free, List.mem_append, not_or] at whole
  refine .code named fun line among => ⟨free line among, ?_⟩
  rintro rfl
  exact whole.1 among

/-- Code between its fences is made of whole lines. -/
theorem exists_lines_of_fenced {language : List Char} (named : '\n' ∉ language) (text : List Char) :
    ∃ lines, fenced language text = joined lines ∧ ∀ line ∈ lines, '\n' ∉ line := by
  refine ⟨(fence ++ language) :: (pieces (trimEnd text) ++ [fence]), ?_, ?_⟩
  · rw [joined_cons, joined_concat, joined_pieces]
    simp [fenced, ended]
  · intro line among
    simp only [List.mem_cons, List.mem_append, List.not_mem_nil, or_false] at among
    rcases among with rfl | among | rfl
    · simp [fence, named]
    · exact newline_not_mem_piece among
    · decide

theorem count_fenced_le {language text code : List Char} (fewer : text.count '\r' ≤ code.count '\r') :
    (fenced language text).count '\r' ≤ (chars (.code language code)).count '\r' := by
  have trimmed := (prefix_of_trimEnd text).sublist.count_le '\r'
  have newline : ['\n'].count '\r' = 0 := rfl
  simp only [fenced, chars, ended, List.count_append]
  omega

end Block

/-! ## Carriage returns in a document -/

theorem count_trim_le (text : List Char) : (trim text).count '\r' ≤ text.count '\r' :=
  (infix_of_trim text).sublist.count_le '\r'

theorem ObjectLiteral.count_chars_le {text : List Char} {literal : ObjectLiteral}
    (reads : ObjectLiteral.parse text = .ok literal) : literal.chars.count '\r' ≤ text.count '\r' := by
  obtain ⟨key, value, braces, _, rfl⟩ := ObjectLiteral.parse_eq_ok_iff.mp reads
  have whole := count_trim_le text
  have inKey := count_trim_le key
  have inValue := count_trim_le value
  simp [braces] at whole
  simp [chars]
  omega

theorem Declaration.count_chars_le {text : List Char} {declaration : Declaration}
    (reads : Declaration.parse text = .ok declaration) : declaration.chars.count '\r' ≤ text.count '\r' := by
  obtain ⟨name, init, literal, source, _, inner, rfl⟩ := Declaration.parse_eq_ok_iff.mp reads
  have whole := (prefix_of_trimEnd text).sublist.count_le '\r'
  have inName := count_trim_le name
  have inInit := ObjectLiteral.count_chars_le inner
  simp [source] at whole
  simp [chars]
  omega

theorem Styled.count_chars_le {text : List Char} {template : Styled} (reads : Styled.read text = .ok template) :
    template.chars.count '\r' ≤ text.count '\r' := by
  rcases Styled.read_eq_ok_iff.mp reads with ⟨_, rfl⟩ | ⟨front, inner, after, literal, first, _, parsed, rfl⟩
  · have whole := (prefix_of_trimEnd text).sublist.count_le '\r'
    simpa [Styled.chars_plain] using whole
  · have inInner := ObjectLiteral.count_chars_le parsed
    have inAfter := (prefix_of_trimEnd after).sublist.count_le '\r'
    rw [Styled.chars_bound, eq_append_of_splitAtFirst first]
    simp
    omega

/-! ## Passages -/

namespace Passage

/-- The block that is printed. -/
def printed : Passage → Block
  | .prose text => .prose text
  | .code language text => .code language (Block.ended (trimEnd text))
  | .declaration made => .code declarationFence (Block.ended (trimEnd made.chars))
  | .template made => .code templateFence (Block.ended (trimEnd made.chars))

theorem chars_printed (passage : Passage) : passage.printed.chars = passage.chars := by
  cases passage <;> rfl

theorem flatMap_chars_printed (passages : List Passage) :
    (passages.map printed).flatMap Block.chars = passages.flatMap chars := by
  rw [List.flatMap_map]
  exact List.flatMap_congr fun passage _ => passage.chars_printed

/-- What a block is read as. -/
inductive ReadAs : Block → Passage → Prop
  | prose (text : List Char) : ReadAs (.prose text) (.prose text)
  | declaration {text : List Char} {made : Declaration} (parses : Declaration.parse text = .ok made) :
    ReadAs (.code declarationFence text) (.declaration made)
  | template {text : List Char} {made : Styled} (reads : Styled.read text = .ok made) :
    ReadAs (.code templateFence text) (.template made)
  | code {name : List Char} (declares : name ≠ declarationFence) (styles : name ≠ templateFence) (text : List Char) :
    ReadAs (.code name text) (.code name text)

theorem read_eq_ok_iff {block : Block} {passage : Passage} : read block = .ok passage ↔ ReadAs block passage := by
  constructor
  · intro reads
    cases block with
    | prose text =>
      cases reads
      exact .prose text
    | code name text =>
      by_cases declares : name = declarationFence
      · subst declares
        rw [read_declarationFence] at reads
        obtain ⟨made, found, rfl⟩ := map_eq_ok_iff.mp reads
        exact .declaration (located_eq_ok_iff.mp (embedded_eq_ok_iff.mp found))
      · by_cases styles : name = templateFence
        · subst styles
          rw [read_templateFence] at reads
          obtain ⟨made, found, rfl⟩ := map_eq_ok_iff.mp reads
          exact .template (embedded_eq_ok_iff.mp found)
        · rw [read_of_unknown declares styles] at reads
          cases reads
          exact .code declares styles text
  · intro reads
    cases reads with
    | prose text => rfl
    | declaration parses =>
      rw [read_declarationFence]
      exact map_eq_ok_iff.mpr ⟨_, embedded_eq_ok_iff.mpr (located_eq_ok_iff.mpr parses), rfl⟩
    | template reads =>
      rw [read_templateFence]
      exact map_eq_ok_iff.mpr ⟨_, embedded_eq_ok_iff.mpr reads, rfl⟩
    | code declares styles text => exact read_of_unknown declares styles text

section
variable {block : Block} {passage : Passage}

theorem ReadAs.isProse_iff (reads : ReadAs block passage) : passage.printed.IsProse ↔ block.IsProse := by
  cases reads <;> exact Iff.rfl

theorem ReadAs.laid_printed (reads : ReadAs block passage) (laid : block.Laid) (whole : ¬ passage.printed.HoldsFence) :
    passage.printed.Laid := by
  cases reads with
  | prose text => exact laid
  | declaration parses => exact Block.laid_ended (by decide) whole
  | template reads => exact Block.laid_ended (by decide) whole
  | code declares styles text =>
    cases laid with
    | code named inside => exact Block.laid_ended named whole

theorem ReadAs.exists_lines (reads : ReadAs block passage) (laid : block.Laid) :
    ∃ lines, passage.chars = Block.joined lines ∧ ∀ line ∈ lines, '\n' ∉ line := by
  cases reads with
  | prose text =>
    cases laid with
    | @prose lines nonempty plain => exact ⟨lines, rfl, fun line among => (plain line among).1⟩
  | declaration parses => exact Block.exists_lines_of_fenced (by decide) _
  | template reads => exact Block.exists_lines_of_fenced (by decide) _
  | code declares styles text =>
    cases laid with
    | code named inside => exact Block.exists_lines_of_fenced named _

theorem ReadAs.count_chars_le (reads : ReadAs block passage) : passage.chars.count '\r' ≤ block.chars.count '\r' := by
  cases reads with
  | prose text => exact Nat.le_refl _
  | declaration parses => exact Block.count_fenced_le (Declaration.count_chars_le parses)
  | template reads => exact Block.count_fenced_le (Styled.count_chars_le reads)
  | code declares styles text => exact Block.count_fenced_le (Nat.le_refl _)

/-- What is printed is read as something that is printed alike. -/
theorem ReadAs.exists_again (reads : ReadAs block passage) :
    ∃ again, ReadAs passage.printed again ∧ again.chars = passage.chars := by
  cases reads with
  | prose text => exact ⟨_, .prose text, rfl⟩
  | @declaration text made parses =>
    have readable := Declaration.readable_of_parse parses
    have same : trimEnd (Block.ended (trimEnd made.chars)) = made.chars := by
      rw [Block.ended, trimEnd_append_newline, trimEnd_trimEnd, made.trimEnd_chars]
    exact ⟨_, .declaration (Declaration.parse_of_trimEnd_eq_chars readable same), rfl⟩
  | @template text made reads =>
    obtain ⟨again, rereads, same⟩ := Styled.read_chars reads
    have whole : Block.ended (trimEnd made.chars) = made.chars := by
      cases made <;> simp [Styled.chars, Template.chars, Block.ended, trimEnd_append_newline, trimEnd_trimEnd]
    refine ⟨.template again, .template (whole.symm ▸ rereads), ?_⟩
    rw [chars, chars, same]
  | code declares styles text =>
    refine ⟨_, .code declares styles _, ?_⟩
    simp [chars, Block.fenced, Block.ended, trimEnd_append_newline, trimEnd_trimEnd]

end

section
variable {blocks : List Block} {passages : List Passage} (reads : List.Forall₂ ReadAs blocks passages)
include reads

theorem map_isProse_printed : (passages.map printed).map Block.IsProse = blocks.map Block.IsProse := by
  induction reads with
  | nil => rfl
  | cons here later ih =>
    simp only [List.map_cons, ih]
    rw [propext here.isProse_iff]

theorem laid_printed (laid : ∀ block ∈ blocks, block.Laid)
    (whole : ∀ passage ∈ passages, ¬ passage.printed.HoldsFence) :
    ∀ block ∈ passages.map printed, block.Laid := by
  induction reads with
  | nil => exact List.forall_mem_nil _
  | @cons block passage blocks passages here later ih =>
    have rest := ih (fun other among => laid other (List.mem_cons_of_mem _ among))
      fun other among => whole other (List.mem_cons_of_mem _ among)
    have first := here.laid_printed (laid block List.mem_cons_self) (whole passage List.mem_cons_self)
    exact List.forall_mem_cons.mpr ⟨first, rest⟩

theorem layout_printed (layout : Block.Layout blocks) (whole : ∀ passage ∈ passages, ¬ passage.printed.HoldsFence) :
    Block.Layout (passages.map printed) := by
  refine ⟨laid_printed reads layout.laid whole, ?_⟩
  have apart : (blocks.map Block.IsProse).IsChain fun before after => before → ¬ after :=
    (List.isChain_map _).mpr layout.apart
  rw [← map_isProse_printed reads] at apart
  exact (List.isChain_map _).mp apart

theorem exists_lines (laid : ∀ block ∈ blocks, block.Laid) :
    ∃ lines, passages.flatMap chars = Block.joined lines ∧ ∀ line ∈ lines, '\n' ∉ line := by
  induction reads with
  | nil => exact ⟨[], rfl, List.forall_mem_nil _⟩
  | cons here later ih =>
    obtain ⟨first, same, free⟩ := here.exists_lines (laid _ List.mem_cons_self)
    obtain ⟨rest, others, clear⟩ := ih fun block among => laid block (List.mem_cons_of_mem _ among)
    refine ⟨first ++ rest, ?_, fun line among => ?_⟩
    · rw [List.flatMap_cons, same, others, Block.joined_append]
    · exact (List.mem_append.mp among).elim (free line) (clear line)

theorem count_flatMap_chars_le : (passages.flatMap chars).count '\r' ≤ (blocks.flatMap Block.chars).count '\r' := by
  induction reads with
  | nil => exact Nat.le_refl _
  | cons here later ih =>
    simp only [List.flatMap_cons, List.count_append]
    exact Nat.add_le_add here.count_chars_le ih

theorem exists_again : ∃ again, List.Forall₂ ReadAs (passages.map printed) again ∧
    again.flatMap chars = passages.flatMap chars := by
  induction reads with
  | nil => exact ⟨[], .nil, rfl⟩
  | cons here later ih =>
    obtain ⟨first, rereads, same⟩ := here.exists_again
    obtain ⟨rest, others, alike⟩ := ih
    exact ⟨first :: rest, .cons rereads others, by rw [List.flatMap_cons, List.flatMap_cons, same, alike]⟩

end

theorem mapM_read_eq_ok_iff {blocks : List Block} {passages : List Passage} :
    blocks.mapM read = .ok passages ↔ List.Forall₂ ReadAs blocks passages := by
  simp only [mapM_eq_ok_iff, read_eq_ok_iff]

/-! ## Reading what was printed -/

section
variable {text : List Char} {passages : List Passage} (reads : (Block.ofText text).mapM read = .ok passages)
include reads

/-- The printed blocks are read again just when no line loses a carriage return or ends code too early. -/
theorem ofText_flatMap_chars_iff :
    Block.ofText (passages.flatMap chars) = passages.map printed ↔
      ¬ ['\r', '\n'] <:+: passages.flatMap chars ∧ ∀ passage ∈ passages, ¬ passage.printed.HoldsFence := by
  have passed := mapM_read_eq_ok_iff.mp reads
  constructor
  · intro same
    constructor
    · intro returns
      obtain ⟨lines, whole, free⟩ := exists_lines passed (Block.layout_ofText text).laid
      rw [whole] at returns
      have fewer := Block.count_ofText_lt free returns
      rw [← whole, same, flatMap_chars_printed] at fewer
      exact Nat.lt_irrefl _ fewer
    · intro passage among
      have layout := Block.layout_ofText (passages.flatMap chars)
      rw [same] at layout
      exact Block.not_holdsFence_of_laid (layout.laid _ (List.mem_map_of_mem among))
  · rintro ⟨bare, whole⟩
    have layout := layout_printed passed (Block.layout_ofText text) whole
    rw [← flatMap_chars_printed] at bare ⊢
    exact Block.ofText_flatMap_chars layout bare

/-- Where the printed blocks are read again, they are printed as before. -/
theorem mapM_read_of_same (same : Block.ofText (passages.flatMap chars) = passages.map printed) :
    ∃ again, (Block.ofText (passages.flatMap chars)).mapM read = .ok again ∧
      again.flatMap chars = passages.flatMap chars := by
  obtain ⟨again, rereads, alike⟩ := exists_again (mapM_read_eq_ok_iff.mp reads)
  rw [same]
  exact ⟨again, mapM_read_eq_ok_iff.mpr rereads, alike⟩

/-- A carriage return that a line has lost does not come back. -/
theorem flatMap_chars_ne_of_returns (returns : ['\r', '\n'] <:+: passages.flatMap chars) {again : List Passage}
    (rereads : (Block.ofText (passages.flatMap chars)).mapM read = .ok again) :
    again.flatMap chars ≠ passages.flatMap chars := by
  intro same
  obtain ⟨lines, whole, free⟩ := exists_lines (mapM_read_eq_ok_iff.mp reads) (Block.layout_ofText text).laid
  have kept := count_flatMap_chars_le (mapM_read_eq_ok_iff.mp rereads)
  rw [same] at kept
  rw [whole] at returns kept
  have lost := Block.count_ofText_lt free returns
  omega

end

end Passage

/-! ## Formatting -/

open Script (kit languages)

section
variable {options : Options kit} {pipeline : Pipeline} {raw output : String} {world : World Script.Journal}

/-- What prose is formatted to, `output`, is formatted to itself if there is no `"\r\n"` in it and no line of the code
    that was printed is a fence. Just then it is read as the blocks that were printed. With `"\r\n"` in it, it is never
    formatted to itself. -/
theorem reformat_of_prose (alone : Alone .prose options) {after : Invocation kit}
    (formats : pipeline.format Script.capabilities raw ⟨options, world⟩ = .ok output after) :
    ∃ passages, (Block.ofText raw.toList).mapM Passage.read = .ok passages ∧
      output.toList = passages.flatMap Passage.chars ∧
      (Block.ofText output.toList = passages.map Passage.printed ↔
        ¬ ['\r', '\n'] <:+: output.toList ∧ ∀ passage ∈ passages, ¬ passage.printed.HoldsFence) ∧
      ∀ (other : Pipeline) (again : Options kit) (later : World Script.Journal), Alone .prose again →
        (¬ ['\r', '\n'] <:+: output.toList → (∀ passage ∈ passages, ¬ passage.printed.HoldsFence) →
          ∃ last, other.format Script.capabilities output ⟨again, later⟩ = .ok output last) ∧
        (['\r', '\n'] <:+: output.toList →
          ∀ last, other.format Script.capabilities output ⟨again, later⟩ ≠ .ok output last) := by
  obtain ⟨document, found, rfl⟩ :=
    (answer_format_eq_ok_iff alone pipeline).mp (answer_eq_ok_iff.mpr ⟨after, formats⟩)
  obtain ⟨passages, reads, rfl⟩ := map_eq_ok_iff.mp found
  have whole : (String.ofList (Document.prose passages).chars).toList = passages.flatMap Passage.chars :=
    String.toList_ofList
  have exact := Passage.ofText_flatMap_chars_iff reads
  refine ⟨passages, reads, whole, whole.symm ▸ exact, fun other again later still => ⟨?_, ?_⟩⟩
  · intro bare closed
    rw [whole] at bare
    obtain ⟨reread, rereads, same⟩ := Passage.mapM_read_of_same reads (exact.mpr ⟨bare, closed⟩)
    refine answer_eq_ok_iff.mp ((answer_format_eq_ok_iff still other).mpr
      ⟨.prose reread, ?_, congrArg String.ofList same⟩)
    rw [whole]
    exact map_eq_ok_iff.mpr ⟨reread, rereads, rfl⟩
  · intro returns last formatted
    rw [whole] at returns
    obtain ⟨document, found, same⟩ :=
      (answer_format_eq_ok_iff still other).mp (answer_eq_ok_iff.mpr ⟨last, formatted⟩)
    rw [whole] at found
    obtain ⟨reread, rereads, rfl⟩ := map_eq_ok_iff.mp found
    exact Passage.flatMap_chars_ne_of_returns reads returns rereads (String.ofList_injective same)

/-- A carriage return inside a line, code in each language, blanks after code, and a block that the text ends. -/
def mixed : String :=
  "Some\rtext\n```js\nlet a=\x7bb:c\x7d;\n\n```\n```vue\n<p>\n```\nmore\n```\nno end  \n"

def mixedOutput : String :=
  "Some\rtext\n```js\nlet a = \x7b b: c \x7d;\n```\n```vue\n<p>\n```\nmore\n```\nno end\n```\n"

theorem reformat_mixed :
    ∃ after, Pipeline.format {} Script.capabilities mixed ⟨fresh .prose, { state := {} }⟩ = .ok mixedOutput after ∧
      ∀ (other : Pipeline) (again : Options kit) (later : World Script.Journal), Alone .prose again →
        ∃ last, other.format Script.capabilities mixedOutput ⟨again, later⟩ = .ok mixedOutput last := by
  have alone := alone_fresh .prose
  have read : (Block.ofText mixed.toList).mapM Passage.read = .ok [
      .prose "Some\rtext\n".toList,
      .declaration ⟨['a'], ⟨['b'], ['c']⟩⟩,
      .template (.plain "<p>\n".toList),
      .prose "more\n".toList,
      .code [] "no end  \n".toList] := rfl
  obtain ⟨after, formats⟩ : ∃ after,
      Pipeline.format {} Script.capabilities mixed ⟨fresh .prose, { state := {} }⟩ = .ok mixedOutput after :=
    answer_eq_ok_iff.mp ((answer_format_eq_ok_iff alone {}).mpr ⟨_, map_eq_ok_iff.mpr ⟨_, read, rfl⟩, rfl⟩)
  obtain ⟨passages, reads, _, _, reformats⟩ := reformat_of_prose alone formats
  cases read.symm.trans reads
  have bare : ¬ ['\r', '\n'] <:+: mixedOutput.toList := splitAtFirst_eq_none_iff.mp rfl
  refine ⟨after, formats, fun other again later still => (reformats other again later still).1 bare ?_⟩
  simp only [List.forall_mem_cons]
  exact ⟨id, by decide, by decide, id, by decide, List.forall_mem_nil _⟩

/-- What prose is formatted to by the languages alone. -/
def formatted (text : String) : Except Fault String :=
  answer (Pipeline.format {} Script.capabilities text ⟨fresh .prose, { state := {} }⟩)

/-- A fence with a blank after it becomes a fence, and one of two carriage returns becomes part of a line's end: what
    is printed is formatted to something else. -/
theorem not_always_reformatted :
    (formatted "```x\n``` \n```\n" = .ok "```x\n```\n```\n" ∧
      formatted "```x\n```\n```\n" = .ok "```x\n\n```\n```\n\n```\n") ∧
    (formatted "a\r\r\n" = .ok "a\r\n" ∧ formatted "a\r\n" = .ok "a\n") ∧
    ¬ ∀ raw output : String, formatted raw = .ok output → formatted output = .ok output := by
  have formats {raw output : String} {passages : List Passage}
      (reads : (Block.ofText raw.toList).mapM Passage.read = .ok passages)
      (prints : String.ofList (passages.flatMap Passage.chars) = output) : formatted raw = .ok output :=
    (answer_format_eq_ok_iff (alone_fresh .prose) {}).mpr ⟨_, map_eq_ok_iff.mpr ⟨_, reads, rfl⟩, prints⟩
  have once : formatted "a\r\r\n" = .ok "a\r\n" := formats rfl rfl
  have twice : formatted "a\r\n" = .ok "a\n" := formats rfl rfl
  refine ⟨⟨formats rfl rfl, formats rfl rfl⟩, ⟨once, twice⟩, fun always => ?_⟩
  have again := twice.symm.trans (always _ _ once)
  exact absurd (Except.ok.inj again) (by decide)

end

end Language

end Polyglot
