import Polyglot.Proofs.Loading
import Polyglot.Proofs.Quoting
import Polyglot.Proofs.Verbatim

/-!
# Keys that are texts

The level and the format of events are texts, which a variable may set or the document of an environment. Both are a key
that one source says something of and nothing else (`SaysOnly`); they agree on the texts that are verbatim
(`variable_or_document`).
-/

namespace Polyglot.Settings

/-! ## Keys that are texts -/

/-- A key of the settings whose value is a text. -/
inductive TextKey
  | level
  | format

namespace TextKey

def field : TextKey → Field String
  | .level => Settings.level
  | .format => Settings.format

def other : TextKey → TextKey
  | .level => .format
  | .format => .level

/-- The key from the root of a source. -/
def path (key : TextKey) : String := "logging." ++ key.field.name

def get (key : TextKey) (settings : Settings) : String :=
  match key with
  | .level => settings.log.level
  | .format => settings.log.format

/-- The settings with the text of a key. -/
def set (key : TextKey) (text : String) (settings : Settings) : Settings :=
  match key with
  | .level => { settings with log := { settings.log with level := text } }
  | .format => { settings with log := { settings.log with format := text } }

example : Environment.key? "PARSEKIT__LOGGING__LEVEL" = some level.path := by decide +kernel

variable {key : TextKey} {text : String} {settings : Settings}

theorem set_injective (key : TextKey) {first second : String}
    (same : key.set first settings = key.set second settings) : first = second := by
  cases key <;> cases same <;> rfl

/-- Settings are those of others with the text of a key when they differ in nothing else. -/
theorem set_eq {again : Settings} (frame : again.frame = settings.frame) (own : key.get again = text)
    (others : key.other.get again = key.other.get settings) : again = key.set text settings := by
  obtain ⟨_, ⟨_, _⟩⟩ := again
  cases key <;> cases frame <;> cases own <;> cases others <;> rfl

theorem name_other (key : TextKey) : key.other.field.name ≠ key.field.name := by
  cases key <;> decide

theorem ofKey_path (key : TextKey) : Place.ofKey key.path = [.key "logging", .key key.field.name] := by
  cases key <;> decide +kernel

end TextKey

theorem PerKey.text {layers : List (Table Setting)} {settings : Settings} (decided : PerKey layers settings)
    (key : TextKey) : Decided "logging" key.field layers (key.get settings) := by
  cases key with
  | level => exact decided.level
  | format => exact decided.format

theorem Proper.text {source : Table Setting} (proper : Proper source) (key : TextKey) :
    Orderly "logging" key.field source := by
  cases key with
  | level => exact proper.level
  | format => exact proper.format

/-! ## Sources that say one thing -/

/-- A source says a scalar of a key that is a text, and nothing else. -/
def SaysOnly (key : TextKey) (scalar : Scalar) (origin : Option String) (source : Table Setting) : Prop :=
  ∀ heading name value, Says heading name source value ↔
    heading = "logging" ∧ name = key.field.name ∧ value = .scalar scalar origin

section

variable {key : TextKey} {scalar : Scalar} {origin : Option String} {source : Table Setting}
variable {heading : String} {α : Type} {field : Field α}

theorem SaysOnly.gives (only : SaysOnly key scalar origin source) :
    Gives "logging" key.field source scalar.spelled := by
  refine ⟨_, (only _ _ _).mpr ⟨rfl, rfl, rfl⟩, ?_⟩
  cases key <;> rfl

theorem SaysOnly.not_gives (only : SaysOnly key scalar origin source)
    (elsewhere : heading ≠ "logging" ∨ field.name ≠ key.field.name) (a : α) : ¬ Gives heading field source a := by
  rintro ⟨value, saying, _⟩
  obtain ⟨same, also, _⟩ := (only _ _ _).mp saying
  exact elsewhere.elim (absurd same) (absurd also)

theorem SaysOnly.orderly (only : SaysOnly key scalar origin source)
    (tabular : ∀ entry ∈ source, Place.ofKey entry.1 = [.key heading] →
      ∃ entries origin, entry.2 = .table entries origin)
    (readable : heading = "logging" → ∃ a, field.read (.scalar scalar origin) = .ok a) :
    Orderly heading field source where
  tabular := tabular
  readable value saying := by
    obtain ⟨same, _, rfl⟩ := (only _ _ _).mp saying
    exact readable same
  once value other saying also := by
    obtain ⟨_, _, rfl⟩ := (only _ _ _).mp saying
    obtain ⟨_, _, rfl⟩ := (only _ _ _).mp also
    rfl

theorem SaysOnly.proper (only : SaysOnly key scalar origin source)
    (tabular : ∀ entry ∈ source, ∀ heading, Place.ofKey entry.1 = [.key heading] →
      ∃ entries origin, entry.2 = .table entries origin) : Proper source where
  linesAbove := only.orderly (fun entry member => tabular entry member _) fun same => absurd same (by decide)
  linesBelow := only.orderly (fun entry member => tabular entry member _) fun same => absurd same (by decide)
  level := only.orderly (fun entry member => tabular entry member _) fun _ => ⟨_, rfl⟩
  format := only.orderly (fun entry member => tabular entry member _) fun _ => ⟨_, rfl⟩

end

/-! ## One variable -/

section

variable {key : TextKey} {name text : String}

theorem source_variable (named : Environment.key? name = some key.path) : Environment.source [(name, text)] =
    [(key.path, .scalar (Environment.scalarOf text) (some Environment.origin))] := by
  simp [Environment.source, named]

theorem saysOnly_variable (named : Environment.key? name = some key.path) :
    SaysOnly key (Environment.scalarOf text) (some Environment.origin) (Environment.source [(name, text)]) := by
  intro heading entry value
  rw [source_variable named]
  by_cases here : heading = "logging"
  · subst here
    simp [key.ofKey_path, eq_comm]
  · simp [key.ofKey_path, not_tells_of_ne (Ne.symm here), here]

theorem proper_variable (named : Environment.key? name = some key.path) :
    Proper (Environment.source [(name, text)]) := by
  refine (saysOnly_variable named).proper ?_
  rw [source_variable named]
  simp [key.ofKey_path]

theorem plain_variable (named : Environment.key? name = some key.path) :
    Plain (Environment.source [(name, text)]) := by
  rw [source_variable named]
  constructor <;>
  · intro entry member part rest place
    obtain rfl := List.mem_singleton.mp member
    simp only [key.ofKey_path, List.cons.injEq] at place
    obtain ⟨_, rfl, rfl⟩ := place
    exact ⟨_, rfl, fun _ => rfl⟩

end

/-! ## A variable or a document -/

/-- A source sets a key to a text, and gives the other keys what another source gives them. -/
structure Sets (key : TextKey) (text : String) (source set : Table Setting) : Prop where
  given : Gives "logging" key.field set text
  other (a : String) : Gives "logging" key.other.field source a ↔ Gives "logging" key.other.field set a
  linesAbove (a : UInt64) :
    Gives "code_frame" Settings.linesAbove source a ↔ Gives "code_frame" Settings.linesAbove set a
  linesBelow (a : UInt64) :
    Gives "code_frame" Settings.linesBelow source a ↔ Gives "code_frame" Settings.linesBelow set a

section

variable {key : TextKey} {name text environment : String} {files more : Files} {special set common : Table Setting}

theorem Layered.with_variable (layered : Layered files environment [] special common)
    (named : Environment.key? name = some key.path) :
    Layered files environment [(name, text)] special common where
  readSpecial := layered.readSpecial
  readCommon := layered.readCommon
  proper := by
    simp [proper_variable named, layered.proper special, layered.proper common]
  plain := by
    simp [plain_variable named, layered.plain special, layered.plain common]

/-- A variable gives its key the text of the scalar that its value stands for, and a document the text that it holds. -/
theorem load_variable_and_document (named : Environment.key? name = some key.path)
    (layered : Layered files environment [] special common) (also : Layered more environment [] set common)
    (sets : Sets key text special set) :
    ∃ settings, load files environment [(name, text)] =
        .ok (key.set (Environment.scalarOf text).spelled settings) ∧
      load more environment [] = .ok (key.set text settings) := by
  have varied : Layered files environment [(name, text)] special common := layered.with_variable named
  obtain ⟨settings, loaded, decided⟩ := varied.load_perKey
  obtain ⟨again, loadedAgain, decidedAgain⟩ := also.load_perKey
  have proper : ∀ source ∈ [Environment.source [(name, text)], special, common], Proper source :=
    fun source member => varied.proper source (List.mem_reverse.mp member)
  -- Elsewhere the variable gives no more than an empty layer, and the documents the same.
  have alike {heading : String} {α : Type} {field : Field α}
      (elsewhere : heading ≠ "logging" ∨ field.name ≠ key.field.name)
      (same : ∀ a, Gives heading field special a ↔ Gives heading field set a) :
      List.Forall₂ (fun source other => ∀ a, Gives heading field source a ↔ Gives heading field other a)
        [Environment.source [(name, text)], special, common] [Environment.source [], set, common] :=
    .cons (fun a => iff_of_false ((saysOnly_variable named).not_gives elsewhere a) not_gives_nil)
      (.cons same (.cons (fun _ => .rfl) .nil))
  have above := decided.linesAbove.unique (fun source member => (proper source member).linesAbove)
    (alike (.inl (by decide)) sets.linesAbove) decidedAgain.linesAbove
  have below := decided.linesBelow.unique (fun source member => (proper source member).linesBelow)
    (alike (.inl (by decide)) sets.linesBelow) decidedAgain.linesBelow
  have others := (decided.text key.other).unique (fun source member => (proper source member).text key.other)
    (alike (.inr key.name_other) sets.other) (decidedAgain.text key.other)
  have own : key.get settings = (Environment.scalarOf text).spelled :=
    (decided.text key).eq_of_gives ((proper_variable named).text key) (saysOnly_variable named).gives
  have ownAgain : key.get again = text :=
    Decided.eq_of_gives ((also.proper set (by simp)).text key) (decidedAgain.text key).of_nil sets.given
  have frame : again.frame = settings.frame := by
    obtain ⟨⟨_, _⟩, _⟩ := settings
    obtain ⟨⟨_, _⟩, _⟩ := again
    cases above
    cases below
    rfl
  refine ⟨settings, ?_, ?_⟩
  · rw [loaded, ← TextKey.set_eq rfl own rfl]
  · rw [loadedAgain, TextKey.set_eq frame ownAgain others.symm]

end

/-! ## Documents of one key -/

namespace TextKey

/-- A document that sets a key to a text and nothing else. -/
def document (key : TextKey) (text : String) : String :=
  String.ofList (key.path.toList ++ ' ' :: '=' :: ' ' :: Toml.quoted text.toList)

/-- What such a document says. -/
def source (key : TextKey) (text : String) (origin : Option String) : Table Setting :=
  [("logging", .table [(key.field.name, .scalar (.text text) origin)] origin)]

theorem path_eq (key : TextKey) : key.path = match key with
    | .level => "logging.level"
    | .format => "logging.format" := by
  cases key <;> decide +kernel

theorem scan_path (key : TextKey) (rest : List Char) : Toml.Scan.key (key.path.toList ++ ' ' :: '=' :: rest) =
    some (["logging", key.field.name], '=' :: rest) := by
  rw [key.path_eq]
  cases key with
  | level =>
    simp only [String.reduceToList, List.cons_append, List.nil_append]
    rfl
  | format =>
    simp only [String.reduceToList, List.cons_append, List.nil_append]
    rfl

/-- A path begins as a bare key does. -/
theorem exists_document_eq (key : TextKey) (text : String) : ∃ first rest, Toml.isKeyChar first = true ∧
    key.document text = String.ofList (first :: rest) ∧
      Toml.Scan.key (first :: rest) = some (["logging", key.field.name], '=' :: ' ' :: Toml.quoted text.toList) := by
  have begins : ∃ rest, key.path.toList = 'l' :: rest := by
    rw [key.path_eq]
    cases key <;> exact ⟨_, rfl⟩
  obtain ⟨rest, same⟩ := begins
  have keyed := key.scan_path (' ' :: Toml.quoted text.toList)
  rw [same, List.cons_append] at keyed
  exact ⟨'l', _, by decide, by rw [document, same, List.cons_append], keyed⟩

theorem read?_document (key : TextKey) (text : String) :
    Toml.read? (key.document text) = some [("logging", .table .dotted [(key.field.name, .text text)])] := by
  obtain ⟨first, rest, bare, same, keyed⟩ := key.exists_document_eq text
  rw [same, Toml.read?_entry bare keyed, String.ofList_toList]
  rfl

theorem dropMark_document (key : TextKey) (text : String) :
    Toml.dropMark (key.document text).toList = (key.document text).toList := by
  obtain ⟨first, rest, bare, same, _⟩ := key.exists_document_eq text
  rw [same, String.toList_ofList, Toml.dropMark_bare bare]

theorem sourceOf_document (key : TextKey) (text : String) (origin : Option String) :
    sourceOf origin (key.document text) = .ok (key.source text origin) := by
  simp only [sourceOf, key.read?_document text]
  rfl

theorem saysOnly_source (key : TextKey) (text : String) (origin : Option String) :
    SaysOnly key (.text text) origin (key.source text origin) := by
  have place : Place.ofKey "logging" = [.key "logging"] := by decide +kernel
  intro heading entry value
  by_cases here : heading = "logging"
  · subst here
    simp [source, place]
  · simp [source, place, not_tells_of_ne (Ne.symm here), here]

theorem proper_source (key : TextKey) (text : String) (origin : Option String) : Proper (key.source text origin) := by
  refine (key.saysOnly_source text origin).proper ?_
  simp [source]

theorem plain_source (key : TextKey) (text : String) (origin : Option String) : Plain (key.source text origin) := by
  have place : Place.ofKey "logging" = [.key "logging"] := by decide +kernel
  exact plain_of_names (by simp [source, place])

theorem sets_source (key : TextKey) (text : String) (origin : Option String) :
    Sets key text [] (key.source text origin) where
  given := (key.saysOnly_source text origin).gives
  other _ := iff_of_false not_gives_nil ((key.saysOnly_source text origin).not_gives (.inr key.name_other) _)
  linesAbove _ := iff_of_false not_gives_nil ((key.saysOnly_source text origin).not_gives (.inl (by decide)) _)
  linesBelow _ := iff_of_false not_gives_nil ((key.saysOnly_source text origin).not_gives (.inl (by decide)) _)

end TextKey

/-- A variable and a document agree on a text exactly where the text is spelled as the scalar that it reads as: the
    variable gives its key the text of this scalar, and a document, which there is for every text, the text itself. -/
theorem variable_or_document (key : TextKey) (text : String) :
    (∀ (name environment : String) (files more : Files) (special set common : Table Setting),
      Environment.key? name = some key.path → Layered files environment [] special common →
      Layered more environment [] set common → Sets key text special set →
        ∃ settings, load files environment [(name, text)] =
            .ok (key.set (Environment.scalarOf text).spelled settings) ∧
          load more environment [] = .ok (key.set text settings) ∧
          (load files environment [(name, text)] = load more environment [] ↔ Environment.isVerbatim text = true)) ∧
    ∃ content, ∀ origin, ∃ set, sourceOf origin content = .ok set ∧ Proper set ∧ Plain set ∧ Sets key text [] set := by
  refine ⟨fun name environment files more special set common named layered also sets => ?_, key.document text,
    fun origin => ⟨key.source text origin, key.sourceOf_document text origin, key.proper_source text origin,
      key.plain_source text origin, key.sets_source text origin⟩⟩
  obtain ⟨settings, varied, documented⟩ := load_variable_and_document named layered also sets
  refine ⟨settings, varied, documented, ?_⟩
  rw [varied, documented, ← Environment.spelled_scalarOf_iff, Except.ok.injEq]
  exact ⟨fun same => key.set_injective same, fun same => by rw [same]⟩

/-! ## A document for one environment -/

/-- The files of an environment whose document sets a key to a text. -/
def only (key : TextKey) (text : String) : Files := [("staging.toml", key.document text)]

theorem layered_only (key : TextKey) (text : String) :
    Layered (only key text) "staging" [] (key.source text (some "config/staging.toml")) [] where
  readSpecial := by
    have found : document? (only key text) "staging" = some ("config/staging.toml", key.document text) := rfl
    exact fileSource_eq found (key.dropMark_document text) (key.read?_document text) rfl
  readCommon := fileSource_of_missing rfl
  proper := by simp [key.proper_source text, Proper.nil, Environment.source]
  plain := by simp [key.plain_source text, Plain.nil, Environment.source]

theorem layered_nothing (environment : String) : Layered [] environment [] [] [] where
  readSpecial := fileSource_nil _
  readCommon := fileSource_nil _
  proper := by simp [Proper.nil, Environment.source]
  plain := by simp [Plain.nil, Environment.source]

/-- A level that is a word is the same from a variable and from a document. -/
theorem variable_or_document_of_word : Environment.isVerbatim "warn" = true ∧
    load [] "staging" [("PARSEKIT__LOGGING__LEVEL", "warn")] = load (only .level "warn") "staging" [] := by
  have verbatim : Environment.isVerbatim "warn" = true := by decide +kernel
  obtain ⟨_, _, _, agree⟩ := (variable_or_document .level "warn").1 "PARSEKIT__LOGGING__LEVEL" "staging" []
    (only .level "warn") [] _ [] (by decide +kernel) (layered_nothing "staging") (layered_only .level "warn")
    (TextKey.sets_source _ _ _)
  exact ⟨verbatim, agree.mpr verbatim⟩

/-- A numeral that integers are not spelled as is another text from a variable than from a document. -/
theorem not_always_verbatim : ¬ ∀ (key : TextKey) (text name environment : String) (files more : Files)
    (special set common : Table Setting), Environment.key? name = some key.path →
      Layered files environment [] special common → Layered more environment [] set common → Sets key text special set →
        load files environment [(name, text)] = load more environment [] := by
  intro always
  have named : Environment.key? "PARSEKIT__LOGGING__LEVEL" = some TextKey.level.path := by decide +kernel
  have sets := TextKey.level.sets_source "007" (some "config/staging.toml")
  have same := always .level "007" _ "staging" _ _ _ _ _ named (layered_nothing "staging")
    (layered_only .level "007") sets
  obtain ⟨settings, varied, documented⟩ :=
    load_variable_and_document named (layered_nothing "staging") (layered_only .level "007") sets
  rw [varied, documented, Except.ok.injEq] at same
  exact absurd (TextKey.set_injective _ same) (by decide +kernel)

end Polyglot.Settings
