import Polyglot.Proofs.Answers
import Polyglot.Proofs.Layers

/-!
# Origins

A document among files is the same source as the document by itself, but for the origin of its values, which no key of
the settings depends on (`Twins`, `exists_twins_of_sourceOf`).
-/

namespace Polyglot

/-! ## Origins -/

namespace Setting

open Toml (Value)
open Answers (exists_of_bind_eq_ok exists_of_isOk isOk_bind_congr)

variable (origin other : Option String)

mutual

/-- Whether a document's value is one of settings does not depend on the origin. -/
theorem isOk_ofValue : ∀ value : Value, (ofValue origin value).isOk = (ofValue other value).isOk
  | .bool _ => rfl
  | .integer n => by
    simp only [ofValue]
    split <;> rfl
  | .real _ => rfl
  | .text _ => rfl
  | .moment _ => rfl
  | .list items => isOk_bind_congr (isOk_ofItems items) fun _ _ => rfl
  | .table _ entries => isOk_bind_congr (isOk_ofEntries entries) fun _ _ => rfl
  | .tables earlier last =>
    isOk_bind_congr (isOk_ofTables earlier) fun _ _ => isOk_bind_congr (isOk_ofEntries last) fun _ _ => rfl

theorem isOk_ofItems : ∀ items : List Value, (ofItems origin items).isOk = (ofItems other items).isOk
  | [] => rfl
  | value :: rest =>
    isOk_bind_congr (isOk_ofValue value) fun _ _ => isOk_bind_congr (isOk_ofItems rest) fun _ _ => rfl

theorem isOk_ofEntries : ∀ entries : List (String × Value),
    (ofEntries origin entries).isOk = (ofEntries other entries).isOk
  | [] => rfl
  | (_, value) :: rest =>
    isOk_bind_congr (isOk_ofValue value) fun _ _ => isOk_bind_congr (isOk_ofEntries rest) fun _ _ => rfl

theorem isOk_ofTables : ∀ tables : List (List (String × Value)),
    (ofTables origin tables).isOk = (ofTables other tables).isOk
  | [] => rfl
  | entries :: rest =>
    isOk_bind_congr (isOk_ofEntries entries) fun _ _ => isOk_bind_congr (isOk_ofTables rest) fun _ _ => rfl

end

/-- Two settings that are those of one value in documents of two origins. -/
def Twin (setting twin : Setting) : Prop := ∃ value, ofValue origin value = .ok setting ∧ ofValue other value = .ok twin

variable {origin other}

theorem mem_ofEntries_iff {entries : List (String × Value)} {source : Table Setting}
    (read : ofEntries origin entries = .ok source) (key : String) (setting : Setting) :
    (key, setting) ∈ source ↔ ∃ value, (key, value) ∈ entries ∧ ofValue origin value = .ok setting := by
  induction entries generalizing source with
  | nil =>
    cases read
    exact ⟨fun member => absurd member List.not_mem_nil, fun ⟨_, member, _⟩ => absurd member List.not_mem_nil⟩
  | cons entry rest ih =>
    obtain ⟨found, here, read⟩ := exists_of_bind_eq_ok read
    obtain ⟨more, later, read⟩ := exists_of_bind_eq_ok read
    cases read
    simp only [List.mem_cons, Prod.mk.injEq, ih later, or_and_right, exists_or]
    refine or_congr_left ⟨?_, ?_⟩
    · rintro ⟨rfl, rfl⟩
      exact ⟨entry.2, rfl, here⟩
    · rintro ⟨value, same, fits⟩
      cases same
      exact ⟨rfl, Except.ok.inj (fits.symm.trans here)⟩

/-- The sources of one table in documents of two origins hold twins under the same keys. -/
theorem exists_twin_of_mem {entries : List (String × Value)} {source twins : Table Setting}
    (read : ofEntries origin entries = .ok source) (again : ofEntries other entries = .ok twins) {key : String}
    {setting : Setting} (member : (key, setting) ∈ source) :
    ∃ twin, (key, twin) ∈ twins ∧ Twin origin other setting twin := by
  obtain ⟨value, present, fits⟩ := (mem_ofEntries_iff read key setting).mp member
  have good : (ofValue other value).isOk = true := by
    rw [isOk_ofValue other origin value, fits]
    rfl
  obtain ⟨twin, fitsTwin⟩ := exists_of_isOk good
  exact ⟨twin, (mem_ofEntries_iff again key twin).mpr ⟨value, present, fitsTwin⟩, value, fits, fitsTwin⟩

theorem Twin.symm {setting twin : Setting} (twins : Twin origin other setting twin) :
    Twin other origin twin setting := by
  obtain ⟨value, fits, again⟩ := twins
  exact ⟨value, again, fits⟩

/-- The twin of a scalar is the same scalar of the other origin. -/
theorem Twin.eq_scalar {scalar : Scalar} {source : Option String} {twin : Setting}
    (twins : Twin origin other (.scalar scalar source) twin) : twin = .scalar scalar other := by
  obtain ⟨value, fits, again⟩ := twins
  cases value with
  | bool value => cases fits; cases again; rfl
  | integer value =>
    simp only [ofValue] at fits again
    split at fits
    · next within => rw [if_pos within] at again; cases fits; cases again; rfl
    · cases fits
  | real value => cases fits; cases again; rfl
  | text value => cases fits; cases again; rfl
  | moment value => cases fits; cases again; rfl
  | list items =>
    obtain ⟨_, _, fits⟩ := exists_of_bind_eq_ok fits
    cases fits
  | table form entries =>
    obtain ⟨_, _, fits⟩ := exists_of_bind_eq_ok fits
    cases fits
  | tables earlier last =>
    obtain ⟨_, _, fits⟩ := exists_of_bind_eq_ok fits
    obtain ⟨_, _, fits⟩ := exists_of_bind_eq_ok fits
    cases fits

/-- The twin of a table holds the twins of what the table holds. -/
theorem Twin.exists_table {entries : List (String × Setting)} {source : Option String} {twin : Setting}
    (twins : Twin origin other (.table entries source) twin) :
    ∃ more, twin = .table more other ∧
      ∀ key setting, (key, setting) ∈ entries → ∃ twin, (key, twin) ∈ more ∧ Twin origin other setting twin := by
  obtain ⟨value, fits, again⟩ := twins
  cases value with
  | table form held =>
    obtain ⟨_, read, fits⟩ := exists_of_bind_eq_ok fits
    obtain ⟨more, readTwin, again⟩ := exists_of_bind_eq_ok again
    cases fits
    cases again
    exact ⟨more, rfl, fun key setting member => exists_twin_of_mem read readTwin member⟩
  | integer value =>
    simp only [ofValue] at fits
    split at fits <;> cases fits
  | list items =>
    obtain ⟨_, _, fits⟩ := exists_of_bind_eq_ok fits
    cases fits
  | tables earlier last =>
    obtain ⟨_, _, fits⟩ := exists_of_bind_eq_ok fits
    obtain ⟨_, _, fits⟩ := exists_of_bind_eq_ok fits
    cases fits
  | bool value => cases fits
  | real value => cases fits
  | text value => cases fits
  | moment value => cases fits

end Setting

namespace Toml

/-! ## Byte order marks -/

theorem statements_mark (fuel : Nat) (rest : List Char) : Scan.statements fuel ('\uFEFF' :: rest) = none := by
  cases fuel with
  | zero => rfl
  | succ fuel => rfl

theorem dropMark_eq_or (text : List Char) : dropMark text = text ∨ text = '\uFEFF' :: dropMark text := by
  unfold dropMark
  split
  · exact .inr rfl
  · exact .inl rfl

/-- A document stays the same without its byte order mark. -/
theorem read?_dropMark {text : String} {table : Table Value} (read : read? text = some table) :
    read? (String.ofList (dropMark text.toList)) = some table := by
  -- A second mark is no part of a document, so that there is none left after the first.
  have once : dropMark (dropMark text.toList) = dropMark text.toList := by
    rcases dropMark_eq_or (dropMark text.toList) with same | marked
    · exact same
    · unfold read? at read
      rw [marked] at read
      simp only [statements_mark] at read
      cases read
  unfold read? at read ⊢
  rwa [String.toList_ofList, once]

end Toml

namespace Settings

open Setting (Twin)

variable {origin other : Option String} {heading : String} {α : Type} {field : Field α} {source twins : Table Setting}

/-- Sources that hold twins under the same keys. -/
def Twins (origin other : Option String) (source twins : Table Setting) : Prop :=
  ∀ key setting, (key, setting) ∈ source → ∃ twin, (key, twin) ∈ twins ∧ Twin origin other setting twin

theorem Tells.exists_twin {name : String} {place : Place} {value twin told : Setting}
    (tells : Tells heading name place value told) (same : Twin origin other value twin) :
    ∃ again, Tells heading name place twin again ∧ Twin origin other told again := by
  cases tells with
  | spelled => exact ⟨twin, .spelled, same⟩
  | inTable entry =>
    obtain ⟨more, rfl, holds⟩ := same.exists_table
    obtain ⟨again, member, twins⟩ := holds _ _ entry
    exact ⟨again, .inTable member, twins⟩

theorem Says.exists_twin {name : String} {told : Setting} (same : Twins origin other source twins)
    (saying : Says heading name source told) :
    ∃ again, Says heading name twins again ∧ Twin origin other told again := by
  obtain ⟨⟨key, value⟩, member, tells⟩ := saying
  obtain ⟨twin, among, twinned⟩ := same key value member
  obtain ⟨again, tellsAgain, twinnedAgain⟩ := tells.exists_twin twinned
  exact ⟨again, ⟨(key, twin), among, tellsAgain⟩, twinnedAgain⟩

/-- A field that is read from scalars, of whichever origin. -/
structure Field.IgnoresOrigins (field : Field α) : Prop where
  scalars : field.ReadsScalars
  read_eq (scalar : Scalar) (origin other : Option String) :
    field.read (.scalar scalar origin) = field.read (.scalar scalar other)

theorem ignoresOrigins_word {name : String} {fallback : UInt64} :
    (⟨name, Setting.word, fallback⟩ : Field UInt64).IgnoresOrigins := ⟨readsScalars_word, fun _ _ _ => rfl⟩

theorem ignoresOrigins_spelled {name : String} {fallback : String} :
    (⟨name, Setting.spelled, fallback⟩ : Field String).IgnoresOrigins := ⟨readsScalars_spelled, fun _ _ _ => rfl⟩

theorem Gives.of_twins {a : α} (ignores : field.IgnoresOrigins) (same : Twins origin other source twins)
    (gives : Gives heading field source a) : Gives heading field twins a := by
  obtain ⟨told, saying, read⟩ := gives
  obtain ⟨scalar, own, rfl⟩ := ignores.scalars told a read
  obtain ⟨again, sayingAgain, twinned⟩ := saying.exists_twin same
  rw [twinned.eq_scalar] at sayingAgain
  exact ⟨_, sayingAgain, (ignores.read_eq scalar other own).trans read⟩

theorem Orderly.of_twins (ignores : field.IgnoresOrigins) (back : Twins other origin twins source)
    (orderly : Orderly heading field source) :
    Orderly heading field twins := by
  -- What the twins say is a scalar, the same that the source says.
  have scalar : ∀ told, Says heading field.name twins told → ∃ scalar own,
      Says heading field.name source (.scalar scalar own) ∧ told = .scalar scalar other := by
    intro told saying
    obtain ⟨first, sayingFirst, twinned⟩ := saying.exists_twin back
    obtain ⟨a, read⟩ := orderly.readable first sayingFirst
    obtain ⟨scalar, own, rfl⟩ := ignores.scalars first a read
    exact ⟨scalar, own, sayingFirst, twinned.symm.eq_scalar⟩
  constructor
  · rintro ⟨key, value⟩ member place
    obtain ⟨first, among, twinned⟩ := back key value member
    obtain ⟨entries, own, table⟩ := orderly.tabular (key, first) among place
    cases table
    obtain ⟨more, again, _⟩ := twinned.symm.exists_table
    exact ⟨more, other, again⟩
  · intro told saying
    obtain ⟨scalar, own, first, rfl⟩ := scalar told saying
    obtain ⟨a, read⟩ := orderly.readable _ first
    exact ⟨a, (ignores.read_eq scalar other own).trans read⟩
  · intro told also saying sayingAlso
    obtain ⟨scalarTold, own, first, rfl⟩ := scalar told saying
    obtain ⟨_, _, second, rfl⟩ := scalar also sayingAlso
    cases orderly.once _ _ first second
    rfl

theorem Clear.of_twins {name : String} (back : Twins other origin twins source) (clear : Clear heading name source) :
    Clear heading name twins := by
  rintro ⟨key, value⟩ member part rest place
  obtain ⟨first, among, _⟩ := back key value member
  exact clear (key, first) among part rest place

theorem Proper.of_twins (back : Twins other origin twins source) (proper : Proper source) : Proper twins where
  linesAbove := proper.linesAbove.of_twins ignoresOrigins_word back
  linesBelow := proper.linesBelow.of_twins ignoresOrigins_word back
  level := proper.level.of_twins ignoresOrigins_spelled back
  format := proper.format.of_twins ignoresOrigins_spelled back

theorem Plain.of_twins (back : Twins other origin twins source) (plain : Plain source) : Plain twins where
  linesAbove := plain.linesAbove.of_twins back
  linesBelow := plain.linesBelow.of_twins back
  level := plain.level.of_twins back
  format := plain.format.of_twins back

/-! ## Documents among files -/

/-- A document that is read by itself is read as the same source from a file. -/
theorem exists_twins_of_sourceOf {text : String} (read : sourceOf none text = .ok source) (origin : Option String) :
    ∃ twins, sourceOf origin (String.ofList (Toml.dropMark text.toList)) = .ok twins ∧
      Twins none origin source twins ∧ Twins origin none twins source := by
  unfold sourceOf at read
  split at read
  · cases read
  · next table document =>
    split at read
    · cases read
    · next entries fits =>
      cases read
      have good : (Setting.ofEntries origin table).isOk = true := by
        rw [Setting.isOk_ofEntries origin none table, fits]
        rfl
      obtain ⟨twins, again⟩ := Answers.exists_of_isOk good
      refine ⟨twins, ?_, fun key setting member => Setting.exists_twin_of_mem fits again member,
        fun key setting member => Setting.exists_twin_of_mem again fits member⟩
      simp only [sourceOf, Toml.read?_dropMark document, again]

theorem exists_mem_of_content? {files : Files} {path : Path} {content : String}
    (found : content? files path = some content) : ∃ name, (name, content) ∈ files := by
  obtain ⟨target, _, found⟩ := Option.bind_eq_some_iff.mp found
  obtain ⟨⟨name, _⟩, file, rfl⟩ := Option.map_eq_some_iff.mp found
  exact ⟨name, List.mem_of_find?_eq_some file⟩

theorem exists_mem_of_document? {files : Files} {name path content : String}
    (found : document? files name = some (path, content)) : ∃ file, (file, content) ∈ files := by
  have exact : ∀ content, (if namesDirectory name then none else content? files (filePath name)) = some content →
      ∃ file, (file, content) ∈ files := by
    intro content found
    split at found
    · cases found
    · exact exists_mem_of_content? found
  unfold document? at found
  split at found
  · cases found
  · dsimp only at found
    split at found
    · next whole =>
      split at found
      · cases found
        exact exact content whole
      · cases found
    · split at found
      · cases found
      · obtain ⟨_, completed, same⟩ := Option.map_eq_some_iff.mp found
        cases same
        exact exists_mem_of_content? completed

theorem document?_default (text : String) :
    document? [("default.toml", text)] "default" = some ("config/default.toml", text) := by
  rfl

end Settings

end Polyglot
