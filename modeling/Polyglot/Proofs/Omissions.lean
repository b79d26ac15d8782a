import Polyglot.Codec.Forms
import Polyglot.Json.Pointer

/-!
# Members left out and added

A serialized record says what it says by its keys: a member whose field has a default may be left out, and members
that are of no field do not count, in whatever order they stand (`Spelling.record`). So a serialized value from which
such members are taken, and to which others are added, in any of its sections, is decoded to the value with the
defaults in these places (`decode_of_edited`).
-/

namespace Polyglot

/-! ## Tables -/

namespace Table

variable {α : Type}

/-- Changes the value of a key, if it has one. -/
def modify (key : String) (change : α → α) (table : Table α) : Table α :=
  match table.lookup key with
  | some value => insert key (change value) table
  | none => table

theorem lookup_modify_self (key : String) (change : α → α) (table : Table α) :
    (modify key change table).lookup key = (table.lookup key).map change := by
  unfold modify
  split
  · next value found => rw [lookup_insert_self, found, Option.map_some]
  · next absent => rw [absent, Option.map_none]

theorem lookup_modify_of_ne {key other : String} (different : other ≠ key) (change : α → α) (table : Table α) :
    (modify key change table).lookup other = table.lookup other := by
  unfold modify
  split
  · exact lookup_insert_of_ne different _ table
  · rfl

theorem ordered_modify (key : String) (change : α → α) {table : Table α} (ordered : Ordered table) :
    Ordered (modify key change table) := by
  unfold modify
  split
  · exact ordered_insert key _ ordered
  · exact ordered

end Table

theorem Json.modifyAt_object (change : Json → Json) (key : String) (keys : List String)
    (members : List (String × Json)) :
    (Json.object members).modifyAt change (key :: keys) =
      .object (Table.modify key (·.modifyAt change keys) members) := by
  simp only [Json.modifyAt, Json.child?, Json.replaceChild, Table.modify]
  cases members.lookup key <;> rfl

/-! ## Spellings -/

namespace Codec

variable {α β γ : Type}

/-- The JSON values that stand for a value. They are decoded to it, and what it is encoded as is one of them. -/
structure Spelling (codec : Codec α) where
  Spells : Json → α → Prop
  decode_of_spells : ∀ {json value}, Spells json value → codec.decode json = .ok value
  spells_encode : ∀ value, Spells (codec.encode value) value

namespace Spelling

theorem decode_encode {codec : Codec α} (spelling : Spelling codec) (value : α) :
    codec.decode (codec.encode value) = .ok value :=
  spelling.decode_of_spells (spelling.spells_encode value)

/-- Nothing but what a value is encoded as. -/
def exact (codec : Codec α) (back : ∀ value, codec.decode (codec.encode value) = .ok value) : Spelling codec where
  Spells json value := json = codec.encode value
  decode_of_spells := by
    rintro _ value rfl
    exact back value
  spells_encode _ := rfl

def word : Spelling Codec.word := exact _ decode_encode_word

def text : Spelling Codec.text := exact _ decode_encode_text

/-- Null stands for no value; it has to stand for none of the others. -/
def optional {codec : Codec α} (spelling : Spelling codec) (full : ∀ value, ¬ spelling.Spells .null value) :
    Spelling codec.optional where
  Spells
    | json, none => json = .null
    | json, some value => spelling.Spells json value
  decode_of_spells := by
    rintro json (_ | value) spells
    · subst spells
      rfl
    · have decodes := spelling.decode_of_spells spells
      cases json with
      | null => exact absurd spells (full value)
      | _ => exact congrArg (Except.map some) decodes
  spells_encode
    | none => rfl
    | some value => spelling.spells_encode value

/-- A change of serialized values that does this to the value they stand for. -/
def Keeps {codec : Codec α} (spelling : Spelling codec) (change : Json → Json) (effect : α → α) : Prop :=
  ∀ json value, spelling.Spells json value → spelling.Spells (change json) (effect value)

theorem keeps_optional {codec : Codec α} {spelling : Spelling codec} {full : ∀ value, ¬ spelling.Spells .null value}
    {change : Json → Json} {effect : α → α} (null : change .null = .null) (keeps : spelling.Keeps change effect) :
    (spelling.optional full).Keeps change (Option.map effect) := by
  rintro json (_ | value) spells
  · subst spells
    exact null
  · exact keeps json value spells

theorem keeps_optional_id {codec : Codec α} {spelling : Spelling codec} {full : ∀ value, ¬ spelling.Spells .null value}
    {change : Json → Json} (null : change .null = .null) (keeps : spelling.Keeps change id) :
    (spelling.optional full).Keeps change id := by
  simpa only [Option.map_id] using keeps_optional null keeps

end Spelling

end Codec

/-! ## Fields -/

namespace Field

open Codec (Spelling)

variable {α : Type}

/-- Only a default is left out. -/
def Lawful (field : Field α) : Prop := ∀ value, field.leftOut value = true → field.default = some value

theorem lawful_required (key : String) (codec : Codec α) : (required key codec).Lawful := nofun

theorem lawful_defaulted (key : String) (codec : Codec α) (default : α) : (defaulted key codec default).Lawful := nofun

theorem lawful_optional (key : String) (codec : Codec α) : (optional key codec).Lawful := by
  intro value isNone
  rw [Option.isNone_iff_eq_none.mp isNone]
  rfl

/-- The members say this of a field: one of them, or where there is none the default. -/
inductive Stands (field : Field α) (spelling : Spelling field.codec) (members : List (String × Json)) : α → Prop
  | member {json : Json} {value : α} (found : members.lookup field.key = some json)
      (spells : spelling.Spells json value) : Stands field spelling members value
  | default {value : α} (absent : members.lookup field.key = none) (given : field.default = some value) :
      Stands field spelling members value

/-- What a field takes from the members that are left, when it had this from those before. -/
inductive Takes (field : Field α) (members : List (String × Json)) : Option α → α → Prop
  | before {value : α} (absent : members.lookup field.key = none) : Takes field members (some value) value
  | member {json : Json} {value : α} (found : members.lookup field.key = some json)
      (decodes : field.codec.decode json = .ok value) : Takes field members none value
  | default {value : α} (absent : members.lookup field.key = none) (given : field.default = some value) :
      Takes field members none value

variable {field : Field α} {spelling : Spelling field.codec} {members : List (String × Json)} {value : α}

theorem Stands.takes (stands : field.Stands spelling members value) : field.Takes members none value := by
  cases stands with
  | member found spells => exact .member found (spelling.decode_of_spells spells)
  | default absent given => exact .default absent given

theorem Takes.settle {held : Option α} (takes : field.Takes [] held value) : field.settle held = .ok value := by
  cases takes with
  | before absent => rfl
  | member found decodes => cases found
  | default absent given => simp only [Field.settle, given]

theorem Takes.of_cons_self {held : Option α} {json : Json}
    (takes : field.Takes ((field.key, json) :: members) held value) :
    held = none ∧ field.codec.decode json = .ok value := by
  have first : ((field.key, json) :: members).lookup field.key = some json := List.lookup_cons_self
  cases takes with
  | before absent => cases first.symm.trans absent
  | member found decodes =>
    cases first.symm.trans found
    exact ⟨rfl, decodes⟩
  | default absent given => cases first.symm.trans absent

theorem Takes.of_cons_of_ne {held : Option α} {key : String} {json : Json} (different : key ≠ field.key)
    (takes : field.Takes ((key, json) :: members) held value) : field.Takes members held value := by
  have passed : ((key, json) :: members).lookup field.key = members.lookup field.key := by
    rw [List.lookup_cons, beq_eq_false_iff_ne.mpr (Ne.symm different)]
  cases takes with
  | before absent => exact .before (passed ▸ absent)
  | member found decodes => exact .member (passed ▸ found) decodes
  | default absent given => exact .default (passed ▸ absent) given

theorem Stands.congr (stands : field.Stands spelling members value) {others : List (String × Json)}
    (same : others.lookup field.key = members.lookup field.key) : field.Stands spelling others value := by
  cases stands with
  | member found spells => exact .member (same.trans found) spells
  | default absent given => exact .default (same.trans absent) given

theorem Stands.insert {key : String} (stands : field.Stands spelling members value) (different : field.key ≠ key)
    (extra : Json) : field.Stands spelling (Table.insert key extra members) value :=
  stands.congr (Table.lookup_insert_of_ne different extra members)

theorem Stands.erase {key : String} (stands : field.Stands spelling members value) (different : field.key ≠ key) :
    field.Stands spelling (Table.erase key members) value :=
  stands.congr (Table.lookup_erase_of_ne different members)

theorem Stands.modify_of_ne {key : String} (stands : field.Stands spelling members value) (different : field.key ≠ key)
    (change : Json → Json) : field.Stands spelling (Table.modify key change members) value :=
  stands.congr (Table.lookup_modify_of_ne different change members)

/-- A member is changed as its field is; there may be none, if the change leaves the default as it is. -/
theorem Stands.modify_self {change : Json → Json} {effect : α → α} (stands : field.Stands spelling members value)
    (keeps : spelling.Keeps change effect)
    (fixed : ∀ default, field.default = some default → effect default = default) :
    field.Stands spelling (Table.modify field.key change members) (effect value) := by
  have found := Table.lookup_modify_self field.key change members
  cases stands with
  | member there spells =>
    rw [there, Option.map_some] at found
    exact .member found (keeps _ _ spells)
  | default absent given =>
    rw [absent, Option.map_none] at found
    rw [fixed value given]
    exact .default found given

/-- What is left out is the default. -/
theorem stands_erase_self (given : field.default = some value) :
    field.Stands spelling (Table.erase field.key members) value :=
  .default (Table.lookup_erase_self field.key members) given

end Field

/-! ## Records -/

namespace Codec

open Polyglot.Field (Stands Takes)

variable {α β γ : Type}

structure Record.Lawful (r : Record α β γ) : Prop where
  distinct : r.first.key ≠ r.second.key
  first : r.first.Lawful
  second : r.second.Lawful
  make_parts : ∀ value, r.make (r.parts value).1 (r.parts value).2 = value
  parts_make : ∀ a b, r.parts (r.make a b) = (a, b)

variable {r : Record α β γ}

/-- The members of a record may stand in any order, among members of other keys. -/
theorem decodeMembers_of_takes (distinct : r.first.key ≠ r.second.key) {members : List (String × Json)}
    (ordered : Table.Ordered members) {heldFirst : Option α} {heldSecond : Option β} {a : α} {b : β}
    (first : r.first.Takes members heldFirst a) (second : r.second.Takes members heldSecond b) :
    r.decodeMembers heldFirst heldSecond members = .ok (r.make a b) := by
  induction members generalizing heldFirst heldSecond with
  | nil =>
    simp only [Record.decodeMembers, first.settle, second.settle]
    rfl
  | cons member rest ih =>
    obtain ⟨key, json⟩ := member
    obtain ⟨later, tail⟩ := List.pairwise_cons.mp ordered
    have once : rest.lookup key = none := by
      rw [List.lookup_eq_none_iff]
      rintro ⟨other, _⟩ among
      exact bne_iff_ne.mpr (Std.ne_of_lt (later _ among))
    rw [Record.decodeMembers]
    split
    · next same =>
      subst same
      obtain ⟨rfl, decodes⟩ := first.of_cons_self
      rw [decodes]
      exact ih tail (.before once) (second.of_cons_of_ne distinct)
    · next notFirst =>
      split
      · next same =>
        subst same
        obtain ⟨rfl, decodes⟩ := second.of_cons_self
        rw [decodes]
        exact ih tail (first.of_cons_of_ne notFirst) (.before once)
      · next notSecond => exact ih tail (first.of_cons_of_ne notFirst) (second.of_cons_of_ne notSecond)

/-- A field stands in what its record is encoded as. -/
theorem stands_encode {field : Field α} (lawful : field.Lawful) (spelling : Spelling field.codec) (value : α)
    {members : List (String × Json)}
    (found : members.lookup field.key = if field.leftOut value then none else some (field.codec.encode value)) :
    field.Stands spelling members value := by
  split at found
  · next out => exact .default found (lawful value out)
  · exact .member found (spelling.spells_encode value)

theorem lookup_encode (r : Record α β γ) (distinct : r.first.key ≠ r.second.key) (a : α) (b : β) :
    (Table.ofEntries (r.first.encode a ++ r.second.encode b)).lookup r.first.key =
        (if r.first.leftOut a then none else some (r.first.codec.encode a)) ∧
      (Table.ofEntries (r.first.encode a ++ r.second.encode b)).lookup r.second.key =
        if r.second.leftOut b then none else some (r.second.codec.encode b) := by
  unfold Field.encode Table.ofEntries
  constructor <;> split <;> split <;>
    simp [Table.lookup_insert, distinct, Ne.symm distinct]

/-- An object in which each field stands. -/
def Spelling.record (r : Record α β γ) (lawful : r.Lawful) (first : Spelling r.first.codec)
    (second : Spelling r.second.codec) : Spelling (Codec.record r) where
  Spells json value := ∃ members a b, json = .object members ∧ Table.Ordered members ∧
    r.first.Stands first members a ∧ r.second.Stands second members b ∧ value = r.make a b
  decode_of_spells := by
    rintro _ _ ⟨members, a, b, rfl, ordered, firstStands, secondStands, rfl⟩
    exact decodeMembers_of_takes lawful.distinct ordered firstStands.takes secondStands.takes
  spells_encode value := by
    obtain ⟨foundFirst, foundSecond⟩ := lookup_encode r lawful.distinct (r.parts value).1 (r.parts value).2
    exact ⟨_, _, _, rfl, Table.ordered_ofEntries _, stands_encode lawful.first first _ foundFirst,
      stands_encode lawful.second second _ foundSecond, (lawful.make_parts value).symm⟩

/-- A record is changed by changing its members, where each field stands for what the change makes of it. -/
theorem Spelling.keeps_record {r : Record α β γ} {lawful : r.Lawful} {first : Spelling r.first.codec}
    {second : Spelling r.second.codec} {change : Json → Json} {alter : List (String × Json) → List (String × Json)}
    {onFirst : α → α} {onSecond : β → β}
    (object : ∀ members, change (.object members) = .object (alter members))
    (ordered : ∀ {members}, Table.Ordered members → Table.Ordered (alter members))
    (firstStands : ∀ {members a}, r.first.Stands first members a → r.first.Stands first (alter members) (onFirst a))
    (secondStands : ∀ {members b},
      r.second.Stands second members b → r.second.Stands second (alter members) (onSecond b)) :
    (Spelling.record r lawful first second).Keeps change
      fun value => r.make (onFirst (r.parts value).1) (onSecond (r.parts value).2) := by
  rintro _ _ ⟨members, a, b, rfl, inOrder, standsFirst, standsSecond, rfl⟩
  simp only [lawful.parts_make]
  exact ⟨_, _, _, object members, ordered inOrder, firstStands standsFirst, secondStands standsSecond, rfl⟩

section Changes

variable {r : Record α β γ} {lawful : r.Lawful} {first : Spelling r.first.codec} {second : Spelling r.second.codec}

theorem Spelling.keeps_record_insert {key : String} (unknown : key ∉ [r.first.key, r.second.key]) (extra : Json) :
    (Spelling.record r lawful first second).Keeps (·.insert key extra) id := by
  obtain ⟨notFirst, notSecond⟩ : key ≠ r.first.key ∧ key ≠ r.second.key := by simpa using unknown
  have kept : (Spelling.record r lawful first second).Keeps (·.insert key extra)
      fun value => r.make (id (r.parts value).1) (id (r.parts value).2) :=
    keeps_record (fun _ => rfl) (Table.ordered_insert key extra) (·.insert notFirst.symm extra)
      (·.insert notSecond.symm extra)
  simpa only [Keeps, id_eq, lawful.make_parts] using kept

theorem Spelling.keeps_record_erase_first {default : α} (given : r.first.default = some default) :
    (Spelling.record r lawful first second).Keeps (·.erase r.first.key)
      fun value => r.make default (r.parts value).2 :=
  keeps_record (fun _ => rfl) (Table.ordered_erase _) (fun _ => Field.stands_erase_self given)
    (·.erase lawful.distinct.symm)

theorem Spelling.keeps_record_erase_second {default : β} (given : r.second.default = some default) :
    (Spelling.record r lawful first second).Keeps (·.erase r.second.key)
      fun value => r.make (r.parts value).1 default :=
  keeps_record (fun _ => rfl) (Table.ordered_erase _) (·.erase lawful.distinct)
    (fun _ => Field.stands_erase_self given)

theorem Spelling.keeps_record_modify_first {change : Json → Json} {keys : List String} {effect : α → α}
    (keeps : first.Keeps (·.modifyAt change keys) effect)
    (fixed : ∀ default, r.first.default = some default → effect default = default) :
    (Spelling.record r lawful first second).Keeps (·.modifyAt change (r.first.key :: keys))
      fun value => r.make (effect (r.parts value).1) (r.parts value).2 :=
  keeps_record (Json.modifyAt_object change r.first.key keys) (Table.ordered_modify _ _) (·.modify_self keeps fixed)
    (·.modify_of_ne lawful.distinct.symm _)

theorem Spelling.keeps_record_modify_second {change : Json → Json} {keys : List String} {effect : β → β}
    (keeps : second.Keeps (·.modifyAt change keys) effect)
    (fixed : ∀ default, r.second.default = some default → effect default = default) :
    (Spelling.record r lawful first second).Keeps (·.modifyAt change (r.second.key :: keys))
      fun value => r.make (r.parts value).1 (effect (r.parts value).2) :=
  keeps_record (Json.modifyAt_object change r.second.key keys) (Table.ordered_modify _ _)
    (·.modify_of_ne lawful.distinct _) (·.modify_self keeps fixed)

theorem Spelling.keeps_record_id_first {change : Json → Json} {keys : List String}
    (keeps : first.Keeps (·.modifyAt change keys) id) :
    (Spelling.record r lawful first second).Keeps (·.modifyAt change (r.first.key :: keys)) id := by
  simpa only [Keeps, id_eq, lawful.make_parts] using keeps_record_modify_first keeps fun _ _ => rfl

theorem Spelling.keeps_record_id_second {change : Json → Json} {keys : List String}
    (keeps : second.Keeps (·.modifyAt change keys) id) :
    (Spelling.record r lawful first second).Keeps (·.modifyAt change (r.second.key :: keys)) id := by
  simpa only [Keeps, id_eq, lawful.make_parts] using keeps_record_modify_second keeps fun _ _ => rfl

end Changes

end Codec

/-! ## Shapes -/

/-- A member that may be left out, and what is left of a value without it. -/
structure Omission (α : Type) where
  path : List String
  key : String
  without : α → α

/-- Where the serialized form of a type has sections, with the keys that they know, and what it may do without. -/
structure Shape (α : Type) where
  codec : Codec α
  sections : List (List String × List String)
  omissions : List (Omission α)

namespace Shape

variable {α : Type}

/-- What a value is serialized to, edited member by member, and the value that is left. -/
inductive Edited (shape : Shape α) (value : α) : Json → α → Prop
  | encoded : Edited shape value (shape.codec.encode value) value
  | omitted {json : Json} {left : α} {omission : Omission α} (edited : Edited shape value json left)
      (known : omission ∈ shape.omissions) :
      Edited shape value (json.modifyAt (·.erase omission.key) omission.path) (omission.without left)
  | added {json : Json} {left : α} {path keys : List String} {key : String} (edited : Edited shape value json left)
      (known : (path, keys) ∈ shape.sections) (unknown : key ∉ keys) (extra : Json) :
      Edited shape value (json.modifyAt (·.insert key extra) path) left

/-- A spelling that each edit leads to another value of it. -/
structure Respects (shape : Shape α) (spelling : Codec.Spelling shape.codec) : Prop where
  omissions : ∀ omission ∈ shape.omissions,
    spelling.Keeps (·.modifyAt (·.erase omission.key) omission.path) omission.without
  sections : ∀ place ∈ shape.sections, ∀ key ∉ place.2, ∀ extra,
    spelling.Keeps (·.modifyAt (·.insert key extra) place.1) id

theorem Respects.spells {shape : Shape α} {spelling : Codec.Spelling shape.codec}
    (respects : shape.Respects spelling) {value left : α} {json : Json} (edited : shape.Edited value json left) :
    spelling.Spells json left := by
  induction edited with
  | encoded => exact spelling.spells_encode value
  | omitted _ known ih => exact respects.omissions _ known _ _ ih
  | added _ known unknown extra ih => exact respects.sections _ known _ unknown extra _ _ ih

theorem Respects.decode {shape : Shape α} {spelling : Codec.Spelling shape.codec}
    (respects : shape.Respects spelling) {value left : α} {json : Json} (edited : shape.Edited value json left) :
    shape.codec.decode json = .ok left :=
  spelling.decode_of_spells (respects.spells edited)

end Shape

open Codec (Spelling)
open Codec.Spelling (keeps_optional_id keeps_record_insert keeps_record_erase_first keeps_record_erase_second
  keeps_record_modify_first keeps_record_modify_second keeps_record_id_first keeps_record_id_second)

def Position.spelling : Spelling Position.codec :=
  .record _ ⟨by decide, Field.lawful_required _ _, Field.lawful_required _ _, fun _ => rfl, fun _ _ => rfl⟩ .word .word

theorem Position.not_spells_null (position : Position) : ¬ Position.spelling.Spells .null position := nofun

def Location.shape : Shape Location where
  codec := Location.codec
  sections := [([], ["start", "end"]), (["start"], ["line", "column"]), (["end"], ["line", "column"])]
  omissions := [⟨[], "end", fun location => { location with stop := none }⟩]

def Location.spelling : Spelling Location.codec :=
  .record _ ⟨by decide, Field.lawful_required _ _, Field.lawful_optional _ _, fun _ => rfl, fun _ _ => rfl⟩
    Position.spelling (.optional Position.spelling Position.not_spells_null)

theorem Location.respects : Location.shape.Respects Location.spelling where
  omissions := List.forall_mem_singleton.mpr (keeps_record_erase_second rfl)
  sections := by
    refine List.forall_mem_cons.mpr ⟨?root, List.forall_mem_cons.mpr ⟨?start, List.forall_mem_singleton.mpr ?stop⟩⟩
    case root => exact fun _ unknown extra => keeps_record_insert unknown extra
    case start => exact fun _ unknown extra => keeps_record_id_first (keeps_record_insert unknown extra)
    case stop =>
      exact fun _ unknown extra => keeps_record_id_second (keeps_optional_id rfl (keeps_record_insert unknown extra))

def Context.shape : Shape Context where
  codec := Context.codec
  sections := [([], ["parser", "parent_parser"])]
  omissions := [⟨[], "parent_parser", fun context => { context with parent := none }⟩]

def Context.spelling : Spelling Context.codec :=
  .record _ ⟨by decide, Field.lawful_required _ _, Field.lawful_optional _ _, fun _ => rfl, fun _ _ => rfl⟩
    .text (.optional .text nofun)

theorem Context.respects : Context.shape.Respects Context.spelling where
  omissions := List.forall_mem_singleton.mpr (keeps_record_erase_second rfl)
  sections := List.forall_mem_singleton.mpr fun _ unknown extra => keeps_record_insert unknown extra

def FrameSettings.shape : Shape FrameSettings where
  codec := FrameSettings.codec
  sections := [([], ["lines_above", "lines_below"])]
  omissions := [
    ⟨[], "lines_above", fun settings => { settings with linesAbove := 2 }⟩,
    ⟨[], "lines_below", fun settings => { settings with linesBelow := 3 }⟩]

def FrameSettings.spelling : Spelling FrameSettings.codec :=
  .record _ ⟨by decide, Field.lawful_defaulted _ _ _, Field.lawful_defaulted _ _ _, fun _ => rfl, fun _ _ => rfl⟩
    .word .word

theorem FrameSettings.respects : FrameSettings.shape.Respects FrameSettings.spelling where
  omissions := List.forall_mem_cons.mpr
    ⟨keeps_record_erase_first rfl, List.forall_mem_singleton.mpr (keeps_record_erase_second rfl)⟩
  sections := List.forall_mem_singleton.mpr fun _ unknown extra => keeps_record_insert unknown extra

def LogSettings.shape : Shape LogSettings where
  codec := LogSettings.codec
  sections := [([], ["level", "format"])]
  omissions := [
    ⟨[], "level", fun settings => { settings with level := "info" }⟩,
    ⟨[], "format", fun settings => { settings with format := "pretty" }⟩]

def LogSettings.spelling : Spelling LogSettings.codec :=
  .record _ ⟨by decide, Field.lawful_defaulted _ _ _, Field.lawful_defaulted _ _ _, fun _ => rfl, fun _ _ => rfl⟩
    .text .text

theorem LogSettings.respects : LogSettings.shape.Respects LogSettings.spelling where
  omissions := List.forall_mem_cons.mpr
    ⟨keeps_record_erase_first rfl, List.forall_mem_singleton.mpr (keeps_record_erase_second rfl)⟩
  sections := List.forall_mem_singleton.mpr fun _ unknown extra => keeps_record_insert unknown extra

def Settings.shape : Shape Settings where
  codec := Settings.codec
  sections := [
    ([], ["code_frame", "logging"]),
    (["code_frame"], ["lines_above", "lines_below"]),
    (["logging"], ["level", "format"])]
  omissions := [
    ⟨[], "code_frame", fun settings => { settings with frame := ⟨2, 3⟩ }⟩,
    ⟨[], "logging", fun settings => { settings with log := ⟨"info", "pretty"⟩ }⟩,
    ⟨["code_frame"], "lines_above", fun settings => { settings with frame.linesAbove := 2 }⟩,
    ⟨["code_frame"], "lines_below", fun settings => { settings with frame.linesBelow := 3 }⟩,
    ⟨["logging"], "level", fun settings => { settings with log.level := "info" }⟩,
    ⟨["logging"], "format", fun settings => { settings with log.format := "pretty" }⟩]

def Settings.spelling : Spelling Settings.codec :=
  .record _ ⟨by decide, Field.lawful_defaulted _ _ _, Field.lawful_defaulted _ _ _, fun _ => rfl, fun _ _ => rfl⟩
    FrameSettings.spelling LogSettings.spelling

/-- A section that is left out is as if each of its members were. -/
theorem Settings.keeps_frame {change : Json → Json} {keys : List String} {effect : FrameSettings → FrameSettings}
    (keeps : FrameSettings.spelling.Keeps (·.modifyAt change keys) effect) (fixed : effect {} = {}) :
    Settings.spelling.Keeps (·.modifyAt change ("code_frame" :: keys))
      fun settings => { settings with frame := effect settings.frame } :=
  keeps_record_modify_first keeps (by rintro _ ⟨⟩; exact fixed)

theorem Settings.keeps_log {change : Json → Json} {keys : List String} {effect : LogSettings → LogSettings}
    (keeps : LogSettings.spelling.Keeps (·.modifyAt change keys) effect) (fixed : effect {} = {}) :
    Settings.spelling.Keeps (·.modifyAt change ("logging" :: keys))
      fun settings => { settings with log := effect settings.log } :=
  keeps_record_modify_second keeps (by rintro _ ⟨⟩; exact fixed)

theorem Settings.respects : Settings.shape.Respects Settings.spelling where
  omissions := by
    simp only [Settings.shape, List.forall_mem_cons]
    refine ⟨?frame, ?log, ?above, ?below, ?level, ?format, by simp⟩
    case frame => exact keeps_record_erase_first rfl
    case log => exact keeps_record_erase_second rfl
    case above => exact Settings.keeps_frame (FrameSettings.respects.omissions _ List.mem_cons_self) rfl
    case below =>
      exact Settings.keeps_frame (FrameSettings.respects.omissions _ (List.mem_cons_of_mem _ List.mem_cons_self)) rfl
    case level => exact Settings.keeps_log (LogSettings.respects.omissions _ List.mem_cons_self) rfl
    case format =>
      exact Settings.keeps_log (LogSettings.respects.omissions _ (List.mem_cons_of_mem _ List.mem_cons_self)) rfl
  sections := by
    refine List.forall_mem_cons.mpr ⟨?root, List.forall_mem_cons.mpr ⟨?frame, List.forall_mem_singleton.mpr ?log⟩⟩
    case root => exact fun _ unknown extra => keeps_record_insert unknown extra
    case frame => exact fun _ unknown extra => keeps_record_id_first (keeps_record_insert unknown extra)
    case log => exact fun _ unknown extra => keeps_record_id_second (keeps_record_insert unknown extra)

theorem Scope.decode_encode (scope : Scope) : Scope.codec.decode (Scope.codec.encode scope) = .ok scope := by
  cases scope <;> rfl

/-- A value that is serialized is had back. Of a serialized location, context or section of settings, or of all
settings, any members that have defaults may be left out, at any place, and others of unknown keys may be added: it is
decoded to the value with exactly the fields that are left out at their defaults. -/
theorem decode_of_edited :
    (∀ location : Location, Location.codec.decode (Location.codec.encode location) = .ok location) ∧
    (∀ scope : Scope, Scope.codec.decode (Scope.codec.encode scope) = .ok scope) ∧
    (∀ context : Context, Context.codec.decode (Context.codec.encode context) = .ok context) ∧
    (∀ settings : FrameSettings, FrameSettings.codec.decode (FrameSettings.codec.encode settings) = .ok settings) ∧
    (∀ settings : LogSettings, LogSettings.codec.decode (LogSettings.codec.encode settings) = .ok settings) ∧
    (∀ settings : Settings, Settings.codec.decode (Settings.codec.encode settings) = .ok settings) ∧
    (∀ location json left, Location.shape.Edited location json left → Location.codec.decode json = .ok left) ∧
    (∀ context json left, Context.shape.Edited context json left → Context.codec.decode json = .ok left) ∧
    (∀ settings json left,
      FrameSettings.shape.Edited settings json left → FrameSettings.codec.decode json = .ok left) ∧
    (∀ settings json left, LogSettings.shape.Edited settings json left → LogSettings.codec.decode json = .ok left) ∧
    ∀ settings json left, Settings.shape.Edited settings json left → Settings.codec.decode json = .ok left :=
  ⟨Location.spelling.decode_encode, Scope.decode_encode, Context.spelling.decode_encode,
    FrameSettings.spelling.decode_encode, LogSettings.spelling.decode_encode, Settings.spelling.decode_encode,
    fun _ _ _ => Location.respects.decode, fun _ _ _ => Context.respects.decode,
    fun _ _ _ => FrameSettings.respects.decode, fun _ _ _ => LogSettings.respects.decode,
    fun _ _ _ => Settings.respects.decode⟩

/-- Settings with the lines above left out, and with keys that are not known beside the sections and in one of them. -/
theorem decode_of_edited_settings :
    Settings.shape.Edited ⟨⟨4, 9⟩, ⟨"debug", "json"⟩⟩
      (.ofMembers [("code_frame", .ofMembers [("colour", .bool true), ("lines_below", .word 9)]),
        ("logging", .ofMembers [("format", .text "json"), ("level", .text "debug")]), ("version", .word 1)])
      ⟨⟨2, 9⟩, ⟨"debug", "json"⟩⟩ ∧
    Settings.codec.decode
      (.ofMembers [("code_frame", .ofMembers [("colour", .bool true), ("lines_below", .word 9)]),
        ("logging", .ofMembers [("format", .text "json"), ("level", .text "debug")]), ("version", .word 1)]) =
      .ok ⟨⟨2, 9⟩, ⟨"debug", "json"⟩⟩ := by
  have above : (⟨["code_frame"], "lines_above", fun settings => { settings with frame.linesAbove := 2 }⟩ :
      Omission Settings) ∈ Settings.shape.omissions := .tail _ (.tail _ (.head _))
  have unedited : Settings.shape.Edited ⟨⟨4, 9⟩, ⟨"debug", "json"⟩⟩ _ _ := .encoded
  have edited := unedited
    |>.omitted above
    |>.added (.tail _ (.head _)) (by decide : "colour" ∉ ["lines_above", "lines_below"]) (.bool true)
    |>.added (.head _) (by decide : "version" ∉ ["code_frame", "logging"]) (.word 1)
  obtain ⟨-, -, -, -, -, -, -, -, -, -, decode⟩ := decode_of_edited
  exact ⟨edited, decode _ _ _ edited⟩

end Polyglot
