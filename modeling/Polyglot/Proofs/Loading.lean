import Polyglot.Proofs.Origins
import Polyglot.Proofs.Quoting

/-!
# Loading settings

An environment loads three layers: the variables over the document of the environment over the default document. Each
key of the settings has the value of the highest layer that gives it one, and two environments whose layers give the
same load the same; the default document alone is read as it is by itself (`load_of_layers`).
-/

namespace Polyglot.Settings

variable {heading name : String} {value : Setting} {α : Type} {field : Field α} {source other : Table Setting}
variable {layers others : List (Table Setting)} {settings again : Settings}

/-! ## What is decided -/

theorem Orderly.gives_unique (orderly : Orderly heading field source) {a b : α} (first : Gives heading field source a)
    (second : Gives heading field source b) : a = b := by
  obtain ⟨told, saying, read⟩ := first
  obtain ⟨also, sayingAlso, readAlso⟩ := second
  cases orderly.once told also saying sayingAlso
  exact Except.ok.inj (read.symm.trans readAlso)

/-- What the highest layer gives is decided. -/
theorem Decided.eq_of_gives {a b : α} (orderly : Orderly heading field source)
    (decided : Decided heading field (source :: layers) a) (gives : Gives heading field source b) : a = b := by
  cases decided with
  | given also => exact orderly.gives_unique also gives
  | silent silent _ => exact absurd gives (silent b)

/-- Layers that give a field the same decide the same. -/
theorem Decided.unique {a b : α} (orderly : ∀ source ∈ layers, Orderly heading field source)
    (same : List.Forall₂ (fun source other => ∀ a, Gives heading field source a ↔ Gives heading field other a)
      layers others)
    (decided : Decided heading field layers a) (also : Decided heading field others b) : a = b := by
  induction same with
  | nil =>
    cases decided
    cases also
    rfl
  | cons here _ ih =>
    cases also with
    | given gives => exact decided.eq_of_gives (orderly _ List.mem_cons_self) ((here b).mpr gives)
    | silent silent belowAlso =>
      cases decided with
      | given gives => exact absurd ((here a).mp gives) (silent a)
      | silent _ below =>
        exact ih (fun source member => orderly source (List.mem_cons_of_mem _ member)) below belowAlso

/-- The lower one of two layers that give a field the same is as good as both. -/
theorem Decided.of_twice {a : α} (same : ∀ a, Gives heading field source a ↔ Gives heading field other a)
    (decided : Decided heading field (source :: other :: layers) a) : Decided heading field (other :: layers) a := by
  cases decided with
  | given gives => exact .given ((same a).mp gives)
  | silent _ below => exact below

theorem not_gives_nil {a : α} : ¬ Gives heading field [] a :=
  fun ⟨_, ⟨_, member, _⟩, _⟩ => List.not_mem_nil member

/-- A layer that says nothing decides nothing. -/
theorem Decided.of_nil {a : α} (decided : Decided heading field ([] :: layers) a) : Decided heading field layers a := by
  cases decided with
  | given gives => exact absurd gives not_gives_nil
  | silent _ below => exact below

/-! ## Sources that give the same -/

/-- Two sources give each key of the settings the same values. -/
structure SameGiven (source other : Table Setting) : Prop where
  linesAbove (a : UInt64) : Gives "code_frame" linesAbove source a ↔ Gives "code_frame" linesAbove other a
  linesBelow (a : UInt64) : Gives "code_frame" linesBelow source a ↔ Gives "code_frame" linesBelow other a
  level (a : String) : Gives "logging" level source a ↔ Gives "logging" level other a
  format (a : String) : Gives "logging" format source a ↔ Gives "logging" format other a

/-- The keys of the settings, each with its section. -/
def keys : List (String × String) :=
  [("code_frame", linesAbove.name), ("code_frame", linesBelow.name), ("logging", level.name), ("logging", format.name)]

theorem SameGiven.refl (source : Table Setting) : SameGiven source source :=
  ⟨fun _ => .rfl, fun _ => .rfl, fun _ => .rfl, fun _ => .rfl⟩

theorem SameGiven.symm (given : SameGiven source other) : SameGiven other source :=
  ⟨fun a => (given.linesAbove a).symm, fun a => (given.linesBelow a).symm, fun a => (given.level a).symm,
    fun a => (given.format a).symm⟩

theorem SameGiven.trans {third : Table Setting} (given : SameGiven source other) (also : SameGiven other third) :
    SameGiven source third :=
  ⟨fun a => (given.linesAbove a).trans (also.linesAbove a), fun a => (given.linesBelow a).trans (also.linesBelow a),
    fun a => (given.level a).trans (also.level a), fun a => (given.format a).trans (also.format a)⟩

theorem gives_congr (same : ∀ value, Says heading field.name source value ↔ Says heading field.name other value)
    (a : α) : Gives heading field source a ↔ Gives heading field other a :=
  exists_congr fun value => and_congr_left fun _ => same value

theorem sameGiven_of_says (same : ∀ heading name, (heading, name) ∈ keys → ∀ value,
    Says heading name source value ↔ Says heading name other value) : SameGiven source other where
  linesAbove := gives_congr (same _ _ (by simp [keys]))
  linesBelow := gives_congr (same _ _ (by simp [keys]))
  level := gives_congr (same _ _ (by simp [keys]))
  format := gives_congr (same _ _ (by simp [keys]))

theorem says_append_iff {first second : Table Setting} :
    Says heading name (first ++ second) value ↔ Says heading name first value ∨ Says heading name second value := by
  simp only [Says, List.mem_append, or_and_right, exists_or]

/-- One source is the other without something that the settings have no use for: a key at its root that says nothing of
    their keys, such as an unknown key or an empty section, or an unknown key inside a section. -/
inductive Omits : Table Setting → Table Setting → Prop
  | atRoot {before after : Table Setting} {key : String} {value : Setting}
      (silent : ∀ heading name, (heading, name) ∈ keys → ∀ told, ¬ Tells heading name (Place.ofKey key) value told) :
      Omits (before ++ (key, value) :: after) (before ++ after)
  | inSection {before after : Table Setting} {key heading : String} {first rest : List (String × Setting)}
      {name : String} {value : Setting} {origin : Option String} (place : Place.ofKey key = [.key heading])
      (unknown : (heading, name) ∉ keys) :
      Omits (before ++ (key, .table (first ++ (name, value) :: rest) origin) :: after)
        (before ++ (key, .table (first ++ rest) origin) :: after)

/-- Unknown keys and empty sections give nothing. -/
theorem Omits.sameGiven (omits : Omits source other) : SameGiven source other := by
  refine sameGiven_of_says fun heading name among value => ?_
  cases omits with
  | atRoot silent =>
    simp only [says_append_iff, says_cons_iff, silent heading name among value, false_or]
  | @inSection _ _ _ section' first rest unknownName _ _ place unknown =>
    simp only [says_append_iff, says_cons_iff, place]
    -- Only what the section itself says could differ.
    refine or_congr_right (or_congr_left ?_)
    by_cases here : section' = heading
    · subst here
      have different : name ≠ unknownName := fun same => unknown (same ▸ among)
      simp only [tells_section_iff, List.mem_append, List.mem_cons, Prod.mk.injEq, different, false_and, false_or]
    · simp only [not_tells_of_ne here]

/-- A key at the root that begins with no section is of no use, whatever its value. -/
theorem omits_unknown {key first : String} {rest : Place} (place : Place.ofKey key = .key first :: rest)
    (unknown : first ≠ "code_frame" ∧ first ≠ "logging") (value : Setting) (before after : Table Setting) :
    Omits (before ++ (key, value) :: after) (before ++ after) := by
  refine .atRoot fun heading name among told => ?_
  rw [place]
  refine not_tells_of_ne fun same => ?_
  simp only [keys, List.mem_cons, Prod.mk.injEq, List.not_mem_nil, or_false] at among
  grind

/-- A section that is empty is as good as none. -/
theorem omits_empty {key first : String} (place : Place.ofKey key = [.key first]) (origin : Option String)
    (before after : Table Setting) : Omits (before ++ (key, .table [] origin) :: after) (before ++ after) := by
  refine .atRoot fun heading name _ told tells => ?_
  rw [place] at tells
  cases tells with
  | inTable entry => exact List.not_mem_nil entry

/-! ## What an environment loads -/

theorem Plain.nil : Plain [] := by constructor <;> exact fun entry member => absurd member List.not_mem_nil

theorem orderly_nil : Orderly heading field [] where
  tabular _ member := absurd member List.not_mem_nil
  readable _ := fun ⟨_, member, _⟩ => absurd member List.not_mem_nil
  once _ _ := fun ⟨_, member, _⟩ => absurd member List.not_mem_nil

theorem Proper.nil : Proper [] := ⟨orderly_nil, orderly_nil, orderly_nil, orderly_nil⟩

theorem PerKey.unique (proper : ∀ source ∈ layers, Proper source) (same : List.Forall₂ SameGiven layers others)
    (decided : PerKey layers settings) (also : PerKey others again) : settings = again := by
  have above := decided.linesAbove.unique (fun source member => (proper source member).linesAbove)
    (same.imp fun _ _ given => given.linesAbove) also.linesAbove
  have below := decided.linesBelow.unique (fun source member => (proper source member).linesBelow)
    (same.imp fun _ _ given => given.linesBelow) also.linesBelow
  have least := decided.level.unique (fun source member => (proper source member).level)
    (same.imp fun _ _ given => given.level) also.level
  have layout := decided.format.unique (fun source member => (proper source member).format)
    (same.imp fun _ _ given => given.format) also.format
  obtain ⟨⟨_, _⟩, ⟨_, _⟩⟩ := settings
  obtain ⟨⟨_, _⟩, ⟨_, _⟩⟩ := again
  cases above
  cases below
  cases least
  cases layout
  rfl

theorem PerKey.of_nil (decided : PerKey ([] :: layers) settings) : PerKey layers settings :=
  ⟨decided.linesAbove.of_nil, decided.linesBelow.of_nil, decided.level.of_nil, decided.format.of_nil⟩

theorem PerKey.of_twice (same : SameGiven source other) (decided : PerKey (source :: other :: layers) settings) :
    PerKey (other :: layers) settings :=
  ⟨decided.linesAbove.of_twice same.linesAbove, decided.linesBelow.of_twice same.linesBelow,
    decided.level.of_twice same.level, decided.format.of_twice same.format⟩

/-- Where each key at the root of a source is one of the root, none reaches through a key of the settings. -/
theorem plain_of_names (names : ∀ entry ∈ source, ∃ name, Place.ofKey entry.1 = [.key name]) : Plain source := by
  constructor <;>
  · intro entry member part rest place
    obtain ⟨name, alone⟩ := names entry member
    rw [alone] at place
    cases place

/-- What an environment loads: the variables, its own document and the default document. In each of them the keys of
    the settings are in order, and none at the root reaches through one. -/
structure Layered (files : Files) (environment : String) (assigned : Environment.Variables)
    (special common : Table Setting) : Prop where
  readSpecial : fileSource files environment = .ok special
  readCommon : fileSource files "default" = .ok common
  proper : ∀ source ∈ [common, special, Environment.source assigned], Proper source
  plain : ∀ source ∈ [common, special, Environment.source assigned], Plain source

section

variable {files : Files} {environment : String} {assigned : Environment.Variables} {special common : Table Setting}

/-- Each key has the value of the highest layer that gives it one. -/
theorem Layered.load_perKey (layered : Layered files environment assigned special common) :
    ∃ settings, load files environment assigned = .ok settings ∧
      PerKey [Environment.source assigned, special, common] settings := by
  obtain ⟨settings, good, decided⟩ := ofSources_perKey layered.proper layered.plain
  refine ⟨settings, ?_, decided⟩
  have rising : sources files environment assigned = .ok [common, special, Environment.source assigned] := by
    rw [sources, layered.readSpecial, layered.readCommon]
    rfl
  simp only [load, rising, good]
  rfl

/-- Environments whose layers give the same load the same. -/
theorem Layered.load_congr {more : Files} {elsewhere : String} {renamed : Environment.Variables}
    {specialAgain commonAgain : Table Setting} (layered : Layered files environment assigned special common)
    (also : Layered more elsewhere renamed specialAgain commonAgain)
    (sameVariables : SameGiven (Environment.source assigned) (Environment.source renamed))
    (sameSpecial : SameGiven special specialAgain) (sameCommon : SameGiven common commonAgain) :
    load files environment assigned = load more elsewhere renamed := by
  obtain ⟨settings, loaded, decided⟩ := layered.load_perKey
  obtain ⟨again, loadedAgain, decidedAgain⟩ := also.load_perKey
  have proper : ∀ source ∈ [Environment.source assigned, special, common], Proper source :=
    fun source member => layered.proper source (List.mem_reverse.mp member)
  have same := decided.unique proper (.cons sameVariables (.cons sameSpecial (.cons sameCommon .nil))) decidedAgain
  rw [loaded, loadedAgain, same]

theorem SameGiven.of_twins {origin : Option String} {twins : Table Setting} (same : Twins none origin source twins)
    (back : Twins origin none twins source) : SameGiven twins source where
  linesAbove _ := ⟨.of_twins ignoresOrigins_word back, .of_twins ignoresOrigins_word same⟩
  linesBelow _ := ⟨.of_twins ignoresOrigins_word back, .of_twins ignoresOrigins_word same⟩
  level _ := ⟨.of_twins ignoresOrigins_spelled back, .of_twins ignoresOrigins_spelled same⟩
  format _ := ⟨.of_twins ignoresOrigins_spelled back, .of_twins ignoresOrigins_spelled same⟩

/-- The source of a document without a byte order mark. -/
theorem fileSource_eq {name path text : String} {table : Table Toml.Value}
    (found : document? files name = some (path, text)) (bare : Toml.dropMark text.toList = text.toList)
    (read : Toml.read? text = some table) (fits : Setting.ofEntries (some path) table = .ok source) :
    fileSource files name = .ok source := by
  simp only [fileSource, found, bare, String.ofList_toList, sourceOf, read, fits]

theorem fileSource_of_missing {name : String} (missing : document? files name = none) :
    fileSource files name = .ok [] := by
  simp only [fileSource, missing]

theorem fileSource_nil (name : String) : fileSource [] name = .ok [] := by
  cases found : document? [] name with
  | none => exact fileSource_of_missing found
  | some file =>
    obtain ⟨_, member⟩ := exists_mem_of_document? found
    exact absurd member List.not_mem_nil

/-- In the default document alone, whatever document a name leads to is this one, if any. -/
theorem exists_fileSource_alone {text : String} (document : sourceOf none text = .ok source) (proper : Proper source)
    (plain : Plain source) (name : String) :
    ∃ layer, fileSource [("default.toml", text)] name = .ok layer ∧ Proper layer ∧ Plain layer ∧
      (SameGiven layer source ∨ document? [("default.toml", text)] name = none ∧ layer = []) := by
  cases found : document? [("default.toml", text)] name with
  | none =>
    exact ⟨[], fileSource_of_missing found, .nil, .nil, .inr ⟨rfl, rfl⟩⟩
  | some file =>
    obtain ⟨path, content⟩ := file
    obtain ⟨_, only⟩ := exists_mem_of_document? found
    cases List.mem_singleton.mp only
    obtain ⟨twins, read, same, back⟩ := exists_twins_of_sourceOf document (some path)
    refine ⟨twins, ?_, proper.of_twins back, plain.of_twins back, .inl (.of_twins same back)⟩
    simp only [fileSource, found, read]

/-- The default document alone is read as it is by itself. -/
theorem load_alone {text : String} (document : sourceOf none text = .ok source) (proper : Proper source)
    (plain : Plain source) (environment : String) :
    ∃ settings, load [("default.toml", text)] environment [] = .ok settings ∧ read text = .ok settings := by
  obtain ⟨common, readCommon, properCommon, plainCommon, givenCommon⟩ :=
    exists_fileSource_alone document proper plain "default"
  obtain ⟨special, readSpecial, properSpecial, plainSpecial, givenSpecial⟩ :=
    exists_fileSource_alone document proper plain environment
  have sameCommon : SameGiven common source := by
    rcases givenCommon with given | ⟨missing, _⟩
    · exact given
    · rw [document?_default] at missing
      cases missing
  have layered : Layered [("default.toml", text)] environment [] special common :=
    ⟨readSpecial, readCommon, by simp [properCommon, properSpecial, Proper.nil, Environment.source],
      by simp [plainCommon, plainSpecial, Plain.nil, Environment.source]⟩
  obtain ⟨settings, loaded, decided⟩ := layered.load_perKey
  have properAlone : ∀ layer ∈ [source], Proper layer := by simpa using proper
  obtain ⟨alone, good, decidedAlone⟩ := ofSources_perKey properAlone (by simpa using plain)
  -- The document of the environment is the default document again, or missing.
  have below : PerKey [common] settings := by
    rcases givenSpecial with given | ⟨_, rfl⟩
    · exact PerKey.of_twice (given.trans sameCommon.symm) decided.of_nil
    · exact decided.of_nil.of_nil
  refine ⟨settings, loaded, ?_⟩
  rw [below.unique (by simpa using properCommon) (.cons sameCommon .nil) decidedAlone, read, ofDocument, document]
  exact congrArg (Except.mapError documentFault) good

end

/-- Settings are layered key by key: each key has the value of the highest layer that gives it one, or its own where
    none does. So environments whose layers give the same load the same; unknown keys give nothing, nor does a section
    that is empty or a document that is missing. The default document alone is read as it is by itself. -/
theorem load_of_layers :
    (∀ (files : Files) (environment : String) (assigned : Environment.Variables) (special common : Table Setting),
      Layered files environment assigned special common →
        ∃ settings, load files environment assigned = .ok settings ∧
          PerKey [Environment.source assigned, special, common] settings) ∧
    (∀ (files more : Files) (environment elsewhere : String) (assigned renamed : Environment.Variables)
      (special common specialAgain commonAgain : Table Setting),
      Layered files environment assigned special common → Layered more elsewhere renamed specialAgain commonAgain →
      SameGiven (Environment.source assigned) (Environment.source renamed) → SameGiven special specialAgain →
      SameGiven common commonAgain → load files environment assigned = load more elsewhere renamed) ∧
    (∀ source other : Table Setting, Omits source other → SameGiven source other) ∧
    (∀ (key first : String) (origin : Option String) (before after : Table Setting), Place.ofKey key = [.key first] →
      SameGiven (before ++ (key, .table [] origin) :: after) (before ++ after)) ∧
    (∀ (files : Files) (name : String), document? files name = none → fileSource files name = .ok []) ∧
    ∀ (text environment : String) (source : Table Setting), sourceOf none text = .ok source → Proper source →
      Plain source → ∃ settings, load [("default.toml", text)] environment [] = .ok settings ∧
        read text = .ok settings := by
  refine ⟨?layered, ?same, ?unknown, ?empty, ?missing, ?alone⟩
  case layered => exact fun _ _ _ _ _ layered => layered.load_perKey
  case same => exact fun _ _ _ _ _ _ _ _ _ _ layered also => layered.load_congr also
  case unknown => exact fun _ _ omits => omits.sameGiven
  case empty => exact fun _ _ origin before after place => (omits_empty place origin before after).sameGiven
  case missing => exact fun _ _ missing => fileSource_of_missing missing
  case alone => exact fun _ environment _ document proper plain => load_alone document proper plain environment

/-! ## A staging environment -/

open Toml (read?_of_statements statement_of_entry statements_cons statements_of_blank value_of_text value_of_token)

def stagingFiles : Files :=
  [("default.toml", "[code_frame]\nlines_above = 5\nfuture = 1\n\n[logging]\nlevel = 'debug'\n"),
    ("staging.toml", "logging.level = 'warn'\n")]

def stagingFormat : Environment.Variables := [("PARSEKIT__LOGGING__FORMAT", "json")]

/-- The second variable is known to no setting. -/
def stagingVariables : Environment.Variables := stagingFormat ++ [("PARSEKIT__OTHER", "1")]

def stagingDocument (origin : Option String) : Table Setting :=
  [("logging", .table [("level", .scalar (.text "warn") origin)] origin)]

def stagingDefault : Table Setting :=
  let origin := some "config/default.toml"
  [("code_frame",
      .table [("future", .scalar (.integer 1) origin), ("lines_above", .scalar (.integer 5) origin)] origin),
    ("logging", .table [("level", .scalar (.text "debug") origin)] origin)]

theorem read?_staging :
    Toml.read? "logging.level = 'warn'\n" = some [("logging", .table .dotted [("level", .text "warn")])] := by
  have read : Toml.Scan.statements 24 (Toml.dropMark "logging.level = 'warn'\n".toList) =
      some ([.entry ["logging", "level"] (.text "warn")], []) := by
    simp only [String.reduceToList]
    exact statements_cons rfl nofun (statement_of_entry nofun rfl (value_of_text (.inr rfl) rfl _)) rfl
      (statements_of_blank rfl _)
  exact (read?_of_statements (by decide +kernel) read).trans rfl

theorem fileSource_staging : fileSource stagingFiles "staging" = .ok (stagingDocument "config/staging.toml") := by
  have found : document? stagingFiles "staging" = some ("config/staging.toml", "logging.level = 'warn'\n") := by
    decide +kernel
  exact fileSource_eq found (by decide +kernel) read?_staging rfl

theorem read?_stagingDefault :
    Toml.read? "[code_frame]\nlines_above = 5\nfuture = 1\n\n[logging]\nlevel = 'debug'\n" =
      some [("code_frame", .table .header [("future", .integer 1), ("lines_above", .integer 5)]),
        ("logging", .table .header [("level", .text "debug")])] := by
  have read : Toml.Scan.statements 68
      (Toml.dropMark "[code_frame]\nlines_above = 5\nfuture = 1\n\n[logging]\nlevel = 'debug'\n".toList) =
      some ([.header ["code_frame"], .entry ["lines_above"] (.integer 5), .entry ["future"] (.integer 1),
        .header ["logging"], .entry ["level"] (.text "debug")], []) := by
    simp only [String.reduceToList]
    refine statements_cons rfl nofun rfl rfl ?_
    refine statements_cons rfl nofun (statement_of_entry nofun rfl (value_of_token rfl (by decide) rfl rfl _)) rfl ?_
    refine statements_cons rfl nofun (statement_of_entry nofun rfl (value_of_token rfl (by decide) rfl rfl _)) rfl ?_
    refine statements_cons rfl nofun rfl rfl ?_
    refine statements_cons rfl nofun (statement_of_entry nofun rfl (value_of_text (.inr rfl) rfl _)) rfl ?_
    exact statements_of_blank rfl _
  exact (read?_of_statements (by decide +kernel) read).trans rfl

theorem fileSource_stagingDefault : fileSource stagingFiles "default" = .ok stagingDefault := by
  have found : document? stagingFiles "default" = some ("config/default.toml",
      "[code_frame]\nlines_above = 5\nfuture = 1\n\n[logging]\nlevel = 'debug'\n") := by
    decide +kernel
  exact fileSource_eq found (by decide +kernel) read?_stagingDefault rfl

theorem source_staging : Environment.source stagingVariables =
    [("logging.format", .scalar (.text "json") (some Environment.origin)),
      ("other", .scalar (.integer 1) (some Environment.origin))] := by
  rfl

theorem source_stagingFormat : Environment.source stagingFormat =
    [("logging.format", .scalar (.text "json") (some Environment.origin))] := by
  rfl

theorem ofKey_staging :
    Place.ofKey "code_frame" = [.key "code_frame"] ∧ Place.ofKey "logging" = [.key "logging"] ∧
      Place.ofKey "logging.format" = [.key "logging", .key "format"] ∧ Place.ofKey "other" = [.key "other"] := by
  decide +kernel

theorem proper_stagingDocument (origin : Option String) : Proper (stagingDocument origin) := by
  constructor <;> constructor <;>
    simp [stagingDocument, ofKey_staging, linesAbove, linesBelow, level, format, Setting.spelled]

theorem proper_stagingDefault : Proper stagingDefault := by
  constructor <;> constructor <;>
    simp [stagingDefault, ofKey_staging, linesAbove, linesBelow, level, format, Setting.word, Scalar.word,
      Setting.spelled]

theorem proper_stagingVariables : Proper (Environment.source stagingVariables) := by
  rw [source_staging]
  constructor <;> constructor <;>
    simp [ofKey_staging, linesAbove, linesBelow, level, format, Setting.spelled]

theorem proper_stagingFormat : Proper (Environment.source stagingFormat) := by
  rw [source_stagingFormat]
  constructor <;> constructor <;>
    simp [ofKey_staging, linesAbove, linesBelow, level, format, Setting.spelled]

theorem plain_stagingDocument (origin : Option String) : Plain (stagingDocument origin) :=
  plain_of_names (by simp [stagingDocument, ofKey_staging])

theorem plain_stagingDefault : Plain stagingDefault := plain_of_names (by simp [stagingDefault, ofKey_staging])

theorem plain_stagingVariables : Plain (Environment.source stagingVariables) := by
  rw [source_staging]
  constructor <;> simp [Clear, ofKey_staging, level, format]

theorem plain_stagingFormat : Plain (Environment.source stagingFormat) := by
  rw [source_stagingFormat]
  constructor <;> simp [Clear, ofKey_staging, level, format]

theorem layered_staging {assigned : Environment.Variables} (proper : Proper (Environment.source assigned))
    (plain : Plain (Environment.source assigned)) :
    Layered stagingFiles "staging" assigned (stagingDocument "config/staging.toml") stagingDefault where
  readSpecial := fileSource_staging
  readCommon := fileSource_stagingDefault
  proper := by simp [proper, proper_stagingDocument, proper_stagingDefault]
  plain := by simp [plain, plain_stagingDocument, plain_stagingDefault]

theorem perKey_staging :
    PerKey [Environment.source stagingVariables, stagingDocument "config/staging.toml", stagingDefault]
      ⟨⟨5, 3⟩, ⟨"warn", "json"⟩⟩ where
  linesAbove := by
    refine .silent ?_ (.silent ?_ (.given ⟨.scalar (.integer 5) (some "config/default.toml"), ?_, rfl⟩))
    · simp [Gives, source_staging, ofKey_staging]
    · simp [Gives, stagingDocument, ofKey_staging]
    · simp [stagingDefault, ofKey_staging, linesAbove]
  linesBelow := by
    refine .silent ?_ (.silent ?_ (.silent ?_ .fallback))
    · simp [Gives, source_staging, ofKey_staging]
    · simp [Gives, stagingDocument, ofKey_staging]
    · simp [Gives, stagingDefault, ofKey_staging, linesBelow]
  level := by
    refine .silent ?_ (.given ⟨.scalar (.text "warn") (some "config/staging.toml"), ?_, rfl⟩)
    · simp [Gives, source_staging, ofKey_staging, level]
    · simp [stagingDocument, ofKey_staging, level]
  format := by
    refine .given ⟨.scalar (.text "json") (some Environment.origin), ?_, rfl⟩
    simp [source_staging, ofKey_staging, format]

theorem omits_stagingOther : Omits (Environment.source stagingVariables) (Environment.source stagingFormat) := by
  rw [source_staging, source_stagingFormat]
  exact omits_unknown ofKey_staging.2.2.2 (by decide) _ [_] []

/-- Every layer decides a key of the staging environment, and the unknown variable none. -/
theorem load_of_staging :
    load stagingFiles "staging" stagingVariables = .ok ⟨⟨5, 3⟩, ⟨"warn", "json"⟩⟩ ∧
      load stagingFiles "staging" stagingFormat = .ok ⟨⟨5, 3⟩, ⟨"warn", "json"⟩⟩ ∧
      ∃ settings, load [("default.toml", "logging.level = 'warn'\n")] "staging" [] = .ok settings ∧
        read "logging.level = 'warn'\n" = .ok settings := by
  obtain ⟨perKey, same, unknown, _, _, alone⟩ := load_of_layers
  have layered := layered_staging proper_stagingVariables plain_stagingVariables
  obtain ⟨settings, loaded, decided⟩ := perKey _ _ _ _ _ layered
  have proper : ∀ source ∈ [Environment.source stagingVariables, stagingDocument "config/staging.toml", stagingDefault],
      Proper source := by
    simp [proper_stagingVariables, proper_stagingDocument, proper_stagingDefault]
  obtain rfl := decided.unique proper (.cons (.refl _) (.cons (.refl _) (.cons (.refl _) .nil))) perKey_staging
  refine ⟨loaded, ?_, ?_⟩
  · rw [← loaded]
    exact same _ _ _ _ _ _ _ _ _ _ (layered_staging proper_stagingFormat plain_stagingFormat) layered
      (unknown _ _ omits_stagingOther).symm (.refl _) (.refl _)
  · have document : sourceOf none "logging.level = 'warn'\n" = .ok (stagingDocument none) := by
      simp only [sourceOf, read?_staging]
      rfl
    exact alone _ "staging" _ document (proper_stagingDocument none) (plain_stagingDocument none)

/-! ## A key that reaches through a setting -/

/-- A variable of a key below a key of the settings is known to none, but makes what it passes through a table. -/
def deepVariables : Environment.Variables := [("PARSEKIT__LOGGING__LEVEL__DEEP", "5")]

theorem source_deep : Environment.source deepVariables =
    [("logging.level.deep", .scalar (.integer 5) (some Environment.origin))] := by
  rfl

theorem proper_deepVariables : Proper (Environment.source deepVariables) := by
  have place : Place.ofKey "logging.level.deep" = [.key "logging", .key "level", .key "deep"] := by decide +kernel
  rw [source_deep]
  constructor <;> constructor <;> simp [place]

/-- A key at the root that reaches through a key of the settings is in the way of the others. -/
theorem not_always_perKey :
    ¬ ∀ (files : Files) (environment : String) (assigned : Environment.Variables) (special common : Table Setting),
      fileSource files environment = .ok special → fileSource files "default" = .ok common →
      (∀ source ∈ [common, special, Environment.source assigned], Proper source) →
        ∃ settings, load files environment assigned = .ok settings ∧
          PerKey [Environment.source assigned, special, common] settings := by
  intro always
  obtain ⟨settings, loaded, _⟩ := always [] "x" deepVariables [] [] (fileSource_nil _) (fileSource_nil _)
    (by simp [Proper.nil, proper_deepVariables])
  have fails : (load [] "x" deepVariables).isOk = false := by decide +kernel
  rw [loaded] at fails
  cases fails

end Polyglot.Settings
