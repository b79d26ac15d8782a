import Mathlib.Data.List.Induction
import Polyglot.Settings.Load

/-!
# Layers of settings

Sources of settings lie one on another, and each key of the settings has the value of the highest source that gives
it one, whatever the sources say of other keys (`ofSources_perKey`). Only a key at the root of a source that reaches
through a key of the settings, or to an item of a section, is in the way of this.
-/

namespace Polyglot

namespace Place

theorem exists_ofKey_eq (key : String) : ∃ first rest, ofKey key = .key first :: rest := by
  simp only [ofKey, parts?]
  split_ifs
  · exact ⟨_, _, rfl⟩
  · cases partsFrom key.toList.length (key.toList.dropWhile isNameChar) with
    | none => exact ⟨_, _, rfl⟩
    | some rest => exact ⟨_, _, rfl⟩

theorem lookup_change_key (f : Setting → Setting) (name : String) (place : Place) (setting : Setting) (other : String) :
    (change f (.key name :: place) setting).entries.lookup other =
      if other = name then some (change f place (setting.member name)) else setting.entries.lookup other := by
  simp only [change, Setting.entries, Table.lookup_insert]

end Place

namespace Settings

/-! ## What a source says -/

/-- What a value at a place from the root says about an entry of a section: the value is the table of the section and
    has the entry, or it is at the place of the entry. -/
inductive Tells (heading name : String) : Place → Setting → Setting → Prop
  | inTable {entries : List (String × Setting)} {origin : Option String} {value : Setting}
      (entry : (name, value) ∈ entries) : Tells heading name [.key heading] (.table entries origin) value
  | spelled {value : Setting} : Tells heading name [.key heading, .key name] value value

/-- What a source says about an entry of a section. -/
def Says (heading name : String) (source : Table Setting) (value : Setting) : Prop :=
  ∃ entry ∈ source, Tells heading name (Place.ofKey entry.1) entry.2 value

variable {heading name : String} {value : Setting} {α : Type}

@[simp]
theorem says_nil_iff : Says heading name [] value ↔ False := by
  simp only [Says, List.not_mem_nil, false_and, exists_false]

@[simp]
theorem says_cons_iff {entry : String × Setting} {rest : Table Setting} :
    Says heading name (entry :: rest) value ↔
      Tells heading name (Place.ofKey entry.1) entry.2 value ∨ Says heading name rest value := by
  simp only [Says, List.mem_cons, exists_eq_or_imp]

@[simp]
theorem tells_section_iff {entries : List (String × Setting)} {origin : Option String} :
    Tells heading name [.key heading] (.table entries origin) value ↔ (name, value) ∈ entries :=
  ⟨fun | .inTable entry => entry, .inTable⟩

@[simp]
theorem tells_entry_iff {other : String} {rest : Place} {told : Setting} :
    Tells heading name (.key heading :: .key other :: rest) value told ↔ other = name ∧ rest = [] ∧ told = value :=
  ⟨fun | .spelled => ⟨rfl, rfl, rfl⟩, fun ⟨same, alone, told⟩ => same ▸ alone ▸ told ▸ .spelled⟩

@[simp]
theorem not_tells_of_ne {first : String} (different : first ≠ heading) {rest : Place} {told : Setting} :
    ¬ Tells heading name (.key first :: rest) value told :=
  fun | .inTable _ => different rfl | .spelled => different rfl

/-- A source gives a field a value. -/
def Gives (heading : String) (field : Field α) (source : Table Setting) (a : α) : Prop :=
  ∃ value, Says heading field.name source value ∧ field.read value = .ok a

/-- The value of a field: that of the first source which gives it one, or its own where none does. -/
inductive Decided (heading : String) (field : Field α) : List (Table Setting) → α → Prop
  | fallback : Decided heading field [] field.fallback
  | given {source : Table Setting} {lower : List (Table Setting)} {a : α} (gives : Gives heading field source a) :
      Decided heading field (source :: lower) a
  | silent {source : Table Setting} {lower : List (Table Setting)} {a : α}
      (silent : ∀ b, ¬ Gives heading field source b) (below : Decided heading field lower a) :
      Decided heading field (source :: lower) a

/-- A source that has the section of a field as a table, if at all, and says at most one thing about the field, which
    can be read. -/
structure Orderly (heading : String) (field : Field α) (source : Table Setting) : Prop where
  tabular : ∀ entry ∈ source, Place.ofKey entry.1 = [.key heading] → ∃ entries origin, entry.2 = .table entries origin
  readable : ∀ value, Says heading field.name source value → ∃ a, field.read value = .ok a
  once : ∀ value other, Says heading field.name source value → Says heading field.name source other → value = other

/-- No key at the root of a source spells a place inside an entry of a section, nor that of an item in the section. -/
def Clear (heading name : String) (source : Table Setting) : Prop :=
  ∀ entry ∈ source, ∀ part rest, Place.ofKey entry.1 = .key heading :: part :: rest →
    ∃ other, part = .key other ∧ (other = name → rest = [])

/-- The settings have for each key what the sources decide. -/
structure PerKey (sources : List (Table Setting)) (settings : Settings) : Prop where
  linesAbove : Decided "code_frame" linesAbove sources settings.frame.linesAbove
  linesBelow : Decided "code_frame" linesBelow sources settings.frame.linesBelow
  level : Decided "logging" level sources settings.log.level
  format : Decided "logging" format sources settings.log.format

/-- A source that is in order for each key. -/
structure Proper (source : Table Setting) : Prop where
  linesAbove : Orderly "code_frame" linesAbove source
  linesBelow : Orderly "code_frame" linesBelow source
  level : Orderly "logging" level source
  format : Orderly "logging" format source

/-- A source in which no key at the root reaches through a key of the settings. -/
structure Plain (source : Table Setting) : Prop where
  linesAbove : Clear "code_frame" linesAbove.name source
  linesBelow : Clear "code_frame" linesBelow.name source
  level : Clear "logging" level.name source
  format : Clear "logging" format.name source

/-! ## What is known -/

/-- What is known about an entry of a section. -/
def known (heading name : String) (root : Setting) : Option Setting := (root.member heading).entries.lookup name

/-- A section is a table, if it is known at all. -/
def Sectioned (heading : String) (root : Setting) : Prop :=
  ∀ value, root.entries.lookup heading = some value → ∃ entries origin, value = .table entries origin

theorem member_of_lookup {root : Setting} (found : root.entries.lookup heading = some value) :
    root.member heading = value := by
  rw [Setting.member, found, Option.getD_some]

/-- Values that are no tables take the place of what was known. -/
def Replaces (value : Setting) : Prop := ∀ root : Setting, root.merge value = value

/-- In a table that says at most one thing about a key, this is what is known after it. -/
theorem lookup_mergeEntries_once {later : List (String × Setting)}
    (replaces : ∀ value, (name, value) ∈ later → Replaces value)
    (once : ∀ value other, (name, value) ∈ later → (name, other) ∈ later → value = other) (entries : Table Setting) :
    (∀ value, (name, value) ∈ later → (Setting.mergeEntries entries later).lookup name = some value) ∧
      ((∀ value, (name, value) ∉ later) → (Setting.mergeEntries entries later).lookup name = entries.lookup name) := by
  induction later generalizing entries with
  | nil => exact ⟨fun _ member => absurd member List.not_mem_nil, fun _ => rfl⟩
  | cons head rest ih =>
    obtain ⟨key, first⟩ := head
    obtain ⟨said, silent⟩ := ih (fun value member => replaces value (List.mem_cons_of_mem _ member))
      (fun value other member more => once value other (List.mem_cons_of_mem _ member) (List.mem_cons_of_mem _ more))
      (entries.insert key (Setting.merge ((entries.lookup key).getD .unset) first))
    refine ⟨fun value member => ?_, fun absent => ?_⟩
    · by_cases later : ∃ other, (name, other) ∈ rest
      · obtain ⟨other, among⟩ := later
        have same := once value other member (List.mem_cons_of_mem _ among)
        exact (said other among).trans (congrArg some same.symm)
      · have here := (List.mem_cons.mp member).resolve_right fun among => later ⟨value, among⟩
        cases here
        exact (silent fun other among => later ⟨other, among⟩).trans
          ((Table.lookup_insert_self ..).trans (congrArg some (replaces first List.mem_cons_self _)))
    · have different : name ≠ key := fun same => absent first (same ▸ List.mem_cons_self)
      exact (silent fun value among => absent value (List.mem_cons_of_mem _ among)).trans
        (Table.lookup_insert_of_ne different ..)

/-- What is known about an entry of a section after something that says at most one thing about it. -/
structure Settles (heading name : String) (said : Setting → Prop) (before after : Setting) : Prop where
  told : ∀ value, said value → known heading name after = some value
  silent : (∀ value, ¬ said value) → known heading name after = known heading name before

section

variable (f : Setting → Setting) (root : Setting)

theorem lookup_change_of_ne {first : String} (different : heading ≠ first) (rest : Place) :
    (Place.change f (.key first :: rest) root).entries.lookup heading = root.entries.lookup heading := by
  rw [Place.lookup_change_key, if_neg different]

theorem lookup_change_self (rest : Place) :
    (Place.change f (.key heading :: rest) root).entries.lookup heading =
      some (Place.change f rest (root.member heading)) := by
  rw [Place.lookup_change_key, if_pos rfl]

theorem known_change_section (entries : List (String × Setting)) (origin : Option String) :
    known heading name (Place.change (·.merge (.table entries origin)) [.key heading] root) =
      (Setting.mergeEntries (root.member heading).entries entries).lookup name := by
  rw [known, member_of_lookup (lookup_change_self _ root [])]
  simp only [Place.change, Setting.merge, Setting.entries]

theorem known_change_entry (other : String) (rest : Place) :
    known heading name (Place.change f (.key heading :: .key other :: rest) root) =
      if name = other then some (Place.change f rest ((root.member heading).member other))
      else known heading name root := by
  rw [known, member_of_lookup (lookup_change_self f root _), Place.lookup_change_key]
  rfl

end

/-- What a value at a place says about an entry is what is known about it afterwards. -/
theorem settles_put {key : String}
    (tabular : Place.ofKey key = [.key heading] → ∃ entries origin, value = .table entries origin)
    (clear : ∀ part rest, Place.ofKey key = .key heading :: part :: rest →
      ∃ other, part = .key other ∧ (other = name → rest = []))
    (replaces : ∀ told, Tells heading name (Place.ofKey key) value told → Replaces told)
    (once : ∀ told other, Tells heading name (Place.ofKey key) value told →
      Tells heading name (Place.ofKey key) value other → told = other) (root : Setting) :
    Settles heading name (Tells heading name (Place.ofKey key) value) root (root.put key value) := by
  rw [Setting.put]
  obtain ⟨first, rest, place⟩ := Place.exists_ofKey_eq key
  rw [place] at tabular clear replaces once ⊢
  by_cases here : heading = first
  · subst here
    cases rest with
    | nil =>
      obtain ⟨entries, origin, rfl⟩ := tabular rfl
      simp only [tells_section_iff] at replaces once
      obtain ⟨told, silent⟩ := lookup_mergeEntries_once replaces once (root.member heading).entries
      refine ⟨fun value tells => ?_, fun nothing => ?_⟩
      · rw [known_change_section]
        exact told value (tells_section_iff.mp tells)
      · rw [known_change_section]
        exact silent fun value entry => nothing value (tells_section_iff.mpr entry)
    | cons part rest =>
      obtain ⟨other, rfl, ends⟩ := clear part rest rfl
      refine ⟨fun told tells => ?_, fun nothing => ?_⟩
      · have replaced := replaces told tells
        obtain ⟨rfl, rfl, rfl⟩ := tells_entry_iff.mp tells
        rw [known_change_entry, if_pos rfl]
        exact congrArg some (replaced _)
      · have different : name ≠ other := fun same =>
          nothing value (tells_entry_iff.mpr ⟨same.symm, ends same.symm, rfl⟩)
        rw [known_change_entry, if_neg different]
  · refine ⟨fun told tells => absurd tells (not_tells_of_ne (Ne.symm here)), fun _ => ?_⟩
    rw [known, known, Setting.member, lookup_change_of_ne _ _ here]
    rfl

theorem sectioned_put {key : String}
    (tabular : Place.ofKey key = [.key heading] → ∃ entries origin, value = .table entries origin)
    (clear : ∀ part rest, Place.ofKey key = .key heading :: part :: rest → ∃ other, part = .key other)
    {root : Setting} (sectioned : Sectioned heading root) : Sectioned heading (root.put key value) := by
  rw [Setting.put]
  obtain ⟨first, rest, place⟩ := Place.exists_ofKey_eq key
  rw [place] at tabular clear ⊢
  intro now found
  by_cases here : heading = first
  · subst here
    rw [lookup_change_self] at found
    obtain rfl := Option.some.inj found
    cases rest with
    | nil =>
      obtain ⟨entries, origin, rfl⟩ := tabular rfl
      exact ⟨_, _, rfl⟩
    | cons part rest =>
      obtain ⟨other, rfl⟩ := clear part rest rfl
      exact ⟨_, _, rfl⟩
  · rw [lookup_change_of_ne _ _ here] at found
    exact sectioned now found

/-! ## Sources one on another -/

theorem settles_putAll {source : Table Setting}
    (tabular : ∀ entry ∈ source, Place.ofKey entry.1 = [.key heading] →
      ∃ entries origin, entry.2 = .table entries origin)
    (clear : Clear heading name source) (replaces : ∀ told, Says heading name source told → Replaces told)
    (once : ∀ told other, Says heading name source told → Says heading name source other → told = other)
    (root : Setting) : Settles heading name (Says heading name source) root (root.putAll source) := by
  induction source generalizing root with
  | nil => exact ⟨fun _ ⟨_, member, _⟩ => absurd member List.not_mem_nil, fun _ => rfl⟩
  | cons entry rest ih =>
    have here : ∀ told, Tells heading name (Place.ofKey entry.1) entry.2 told →
        Says heading name (entry :: rest) told :=
      fun told tells => says_cons_iff.mpr (.inl tells)
    have later : ∀ told, Says heading name rest told → Says heading name (entry :: rest) told :=
      fun told saying => says_cons_iff.mpr (.inr saying)
    have first : Settles heading name (Tells heading name (Place.ofKey entry.1) entry.2) root
        (root.put entry.1 entry.2) :=
      settles_put (tabular entry List.mem_cons_self) (clear entry List.mem_cons_self)
        (fun told tells => replaces told (here told tells))
        (fun told other tells more => once told other (here told tells) (here other more)) root
    have after : Settles heading name (Says heading name rest) (root.put entry.1 entry.2)
        ((root.put entry.1 entry.2).putAll rest) :=
      ih (fun other member => tabular other (List.mem_cons_of_mem _ member))
        (fun other member => clear other (List.mem_cons_of_mem _ member))
        (fun told saying => replaces told (later told saying))
        (fun told other saying more => once told other (later told saying) (later other more)) _
    refine ⟨fun told saying => ?_, fun nothing => ?_⟩
    · by_cases again : ∃ other, Says heading name rest other
      · obtain ⟨other, more⟩ := again
        exact (after.told other more).trans (congrArg some (once other told (later other more) saying))
      · have tells := (says_cons_iff.mp saying).resolve_right fun more => again ⟨told, more⟩
        exact (after.silent fun other more => again ⟨other, more⟩).trans (first.told told tells)
    · exact (after.silent fun told saying => nothing told (later told saying)).trans
        (first.silent fun told tells => nothing told (here told tells))

theorem sectioned_putAll {source : Table Setting}
    (tabular : ∀ entry ∈ source, Place.ofKey entry.1 = [.key heading] →
      ∃ entries origin, entry.2 = .table entries origin)
    (clear : Clear heading name source) {root : Setting} (sectioned : Sectioned heading root) :
    Sectioned heading (root.putAll source) := by
  induction source generalizing root with
  | nil => exact sectioned
  | cons entry rest ih =>
    refine ih (fun other member => tabular other (List.mem_cons_of_mem _ member))
      (fun other member => clear other (List.mem_cons_of_mem _ member)) ?_
    refine sectioned_put (tabular entry List.mem_cons_self) (fun part rest place => ?_) sectioned
    obtain ⟨other, named, _⟩ := clear entry List.mem_cons_self part rest place
    exact ⟨other, named⟩

namespace Field

variable (field : Field α)

/-- What a field is according to what is known about it. -/
def ofKnown : Option Setting → Except Problem α
  | none => .ok field.fallback
  | some value => field.read value

/-- Scalars are all that a field can be read from. -/
def ReadsScalars : Prop := ∀ value a, field.read value = .ok a → ∃ scalar origin, value = .scalar scalar origin

end Field

theorem readsScalars_word {name : String} {fallback : UInt64} :
    (⟨name, Setting.word, fallback⟩ : Field UInt64).ReadsScalars := by
  intro value a read
  cases value with
  | scalar scalar origin => exact ⟨scalar, origin, rfl⟩
  | unset => cases read
  | list items origin => cases read
  | table entries origin => cases read

theorem readsScalars_spelled {name : String} {fallback : String} :
    (⟨name, Setting.spelled, fallback⟩ : Field String).ReadsScalars := by
  intro value a read
  cases value with
  | scalar scalar origin => exact ⟨scalar, origin, rfl⟩
  | unset => cases read
  | list items origin => cases read
  | table entries origin => cases read

theorem replaces_scalar (scalar : Scalar) (origin : Option String) : Replaces (.scalar scalar origin) :=
  fun root => Setting.merge_scalar root scalar origin

variable {field : Field α} {sources : List (Table Setting)}

theorem Orderly.replaces {source : Table Setting} (orderly : Orderly heading field source)
    (scalars : field.ReadsScalars) (told : Setting) (saying : Says heading field.name source told) : Replaces told := by
  obtain ⟨a, read⟩ := orderly.readable told saying
  obtain ⟨scalar, origin, rfl⟩ := scalars told a read
  exact replaces_scalar scalar origin

/-- What is known of a field after all sources is what they decide. -/
theorem exists_decided (scalars : field.ReadsScalars)
    (orderly : ∀ source ∈ sources, Orderly heading field source)
    (clear : ∀ source ∈ sources, Clear heading field.name source) :
    ∃ a, field.ofKnown (known heading field.name (combine sources)) = .ok a ∧
      Decided heading field sources.reverse a := by
  induction sources using List.reverseRecOn with
  | nil => exact ⟨field.fallback, rfl, .fallback⟩
  | append_singleton lower source ih =>
    have inOrder := orderly source (by simp)
    obtain ⟨told, silent⟩ := settles_putAll inOrder.tabular (clear source (by simp)) (inOrder.replaces scalars)
      inOrder.once (combine lower)
    rw [combine_append, List.reverse_append]
    by_cases gives : ∃ value, Says heading field.name source value
    · obtain ⟨value, saying⟩ := gives
      obtain ⟨a, read⟩ := inOrder.readable value saying
      refine ⟨a, ?_, .given ⟨value, saying, read⟩⟩
      exact (congrArg field.ofKnown (told value saying)).trans read
    · obtain ⟨a, read, decided⟩ := ih (fun other member => orderly other (by simp [member]))
        (fun other member => clear other (by simp [member]))
      refine ⟨a, ?_, .silent (fun b ⟨value, saying, _⟩ => gives ⟨value, saying⟩) decided⟩
      exact (congrArg field.ofKnown (silent fun value saying => gives ⟨value, saying⟩)).trans read

theorem sectioned_combine (tabular : ∀ source ∈ sources, ∀ entry ∈ source, Place.ofKey entry.1 = [.key heading] →
      ∃ entries origin, entry.2 = .table entries origin) (clear : ∀ source ∈ sources, Clear heading name source) :
    Sectioned heading (combine sources) := by
  induction sources using List.reverseRecOn with
  | nil => exact fun value found => nomatch found
  | append_singleton lower source ih =>
    rw [combine_append]
    exact sectioned_putAll (tabular source (by simp)) (clear source (by simp))
      (ih (fun other member => tabular other (by simp [member])) fun other member => clear other (by simp [member]))

/-! ## Reading what is known -/

theorem named_eq_of_ofKnown {field : Field α} {entries : Table Setting} {a : α}
    (read : field.ofKnown (entries.lookup field.name) = .ok a) (key : String) : field.named key entries = .ok a := by
  unfold Field.named
  cases found : entries.lookup field.name with
  | none =>
    rw [found] at read
    exact congrArg Except.ok (Except.ok.inj read)
  | some value =>
    rw [found] at read
    have read : field.read value = .ok a := read
    simp only [Setting.field, read]

theorem section?_table_eq {β : Type} {first : Field α} {second : Field β} {entries : Table Setting} {a : α} {b : β}
    (readFirst : first.ofKnown (entries.lookup first.name) = .ok a)
    (readSecond : second.ofKnown (entries.lookup second.name) = .ok b) (key title : String) (origin : Option String) :
    Settings.section? key title first second (.table entries origin) = .ok (a, b) := by
  simp only [section?, named_eq_of_ofKnown readFirst, named_eq_of_ofKnown readSecond]
  split <;> rfl

theorem frameOf_eq {root : Setting} {above below : UInt64} (sectioned : Sectioned "code_frame" root)
    (readAbove : linesAbove.ofKnown (known "code_frame" linesAbove.name root) = .ok above)
    (readBelow : linesBelow.ofKnown (known "code_frame" linesBelow.name root) = .ok below) :
    frameOf root.entries = .ok ⟨above, below⟩ := by
  unfold frameOf
  cases found : root.entries.lookup "code_frame" with
  | none =>
    rw [known, Setting.member, found] at readAbove readBelow
    cases readAbove
    cases readBelow
    rfl
  | some value =>
    obtain ⟨entries, origin, rfl⟩ := sectioned value found
    rw [known, member_of_lookup found] at readAbove readBelow
    exact congrArg (Except.map _) (section?_table_eq readAbove readBelow _ _ _)

theorem logOf_eq {root : Setting} {least layout : String} (sectioned : Sectioned "logging" root)
    (readLevel : level.ofKnown (known "logging" level.name root) = .ok least)
    (readFormat : format.ofKnown (known "logging" format.name root) = .ok layout) :
    logOf root.entries = .ok ⟨least, layout⟩ := by
  unfold logOf
  cases found : root.entries.lookup "logging" with
  | none =>
    rw [known, Setting.member, found] at readLevel readFormat
    cases readLevel
    cases readFormat
    rfl
  | some value =>
    obtain ⟨entries, origin, rfl⟩ := sectioned value found
    rw [known, member_of_lookup found] at readLevel readFormat
    exact congrArg (Except.map _) (section?_table_eq readLevel readFormat _ _ _)

/-- Sources in rising order say settings that have for each key what the highest source says which says it. -/
theorem ofSources_perKey (proper : ∀ source ∈ sources, Proper source) (plain : ∀ source ∈ sources, Plain source) :
    ∃ settings, ofSources sources = .ok settings ∧ PerKey sources.reverse settings := by
  obtain ⟨above, readAbove, decidedAbove⟩ := exists_decided readsScalars_word
    (fun source member => (proper source member).linesAbove) fun source member => (plain source member).linesAbove
  obtain ⟨below, readBelow, decidedBelow⟩ := exists_decided readsScalars_word
    (fun source member => (proper source member).linesBelow) fun source member => (plain source member).linesBelow
  obtain ⟨least, readLevel, decidedLevel⟩ := exists_decided readsScalars_spelled
    (fun source member => (proper source member).level) fun source member => (plain source member).level
  obtain ⟨layout, readFormat, decidedFormat⟩ := exists_decided readsScalars_spelled
    (fun source member => (proper source member).format) fun source member => (plain source member).format
  have frame := frameOf_eq (sectioned_combine (fun source member => (proper source member).linesAbove.tabular)
    fun source member => (plain source member).linesAbove) readAbove readBelow
  have log := logOf_eq (sectioned_combine (fun source member => (proper source member).level.tabular)
    fun source member => (plain source member).level) readLevel readFormat
  refine ⟨⟨⟨above, below⟩, ⟨least, layout⟩⟩, ?_, decidedAbove, decidedBelow, decidedLevel, decidedFormat⟩
  rw [ofSources, ofSetting, frame, log]
  rfl

end Settings

end Polyglot
