import Mathlib.Data.List.Destutter
import Mathlib.Data.String.Basic
import Polyglot.Proofs.Overriding
import Polyglot.Script.Build

/-!
# The names of parsers

A registry lists the names that are declared for parsers in the order of their bytes, each once
(`mem_parserNames_iff`, `pairwise_bytes_parserNames`). A parser is found for each of them but the empty one, and for
no other name (`parserNames_of_assembled`).
-/

namespace Polyglot

/-! ## The order of bytes -/

namespace Text

/-- The bytes of a text in UTF-8. -/
def bytes (text : String) : List UInt8 := text.toByteArray.data.toList

theorem bytes_eq (text : String) : bytes text = text.toList.flatMap String.utf8EncodeChar := by
  rw [bytes, ← String.utf8Encode_toList, List.utf8Encode, List.toList_data_toByteArray]

theorem cons_ofNat_lt {lead other : Nat} (less : lead < other) (small : other < UInt8.size) (rest more : List UInt8) :
    UInt8.ofNat lead :: rest < UInt8.ofNat other :: more :=
  List.cons_lt_cons_iff.mpr (.inl ((UInt8.ofNat_lt_iff_lt (Nat.lt_trans less small) small).mpr less))

/-- Numbers compare as they do without their last digit to base 64, and by this digit where that is all that
    tells them apart. So do their bytes when the last of these is for the last digit. -/
theorem append_digit_lt {v w : Nat} (less : v < w) (front ahead : List UInt8)
    (before : v / 64 < w / 64 → ∀ rest more, front ++ rest < ahead ++ more) (same : v / 64 = w / 64 → front = ahead)
    (rest more : List UInt8) :
    front ++ UInt8.ofNat (v % 64 + 128) :: rest < ahead ++ UInt8.ofNat (w % 64 + 128) :: more := by
  rcases Nat.lt_or_eq_of_le (Nat.div_le_div_right (Nat.le_of_lt less)) with earlier | equal
  · exact before earlier _ _
  · rw [same equal]
    have small : w % 64 + 128 < UInt8.size := by
      simp only [UInt8.size]
      omega
    exact List.append_left_lt (cons_ofNat_lt (by omega) small rest more)

/-- The encodings of two characters differ in a byte, and there as the characters do. -/
theorem encodeChar_append_lt {c d : Char} (less : c < d) (rest more : List UInt8) :
    String.utf8EncodeChar c ++ rest < String.utf8EncodeChar d ++ more := by
  have below : c.val.toNat < d.val.toNat := less
  have bounded : d.val.toNat < 0x110000 := by
    rcases d.valid with low | high
    · exact Nat.lt_trans low (by decide)
    · exact high.2
  simp only [String.utf8EncodeChar]
  generalize c.val.toNat = v at below ⊢
  generalize d.val.toNat = w at below bounded ⊢
  have size : UInt8.size = 256 := rfl
  have double : ∀ n, n / 4096 = n / 64 / 64 := by omega
  have triple : ∀ n, n / 262144 = n / 64 / 64 / 64 := by omega
  rw [double v, double w, triple v, triple w]
  -- The first byte of a longer encoding is greater; between two of one length the digits decide.
  split_ifs <;> try omega
  · exact cons_ofNat_lt below (by omega) _ _
  · exact cons_ofNat_lt (by omega) (by omega) _ _
  · exact cons_ofNat_lt (by omega) (by omega) _ _
  · exact cons_ofNat_lt (by omega) (by omega) _ _
  · refine append_digit_lt below [_] [_] (fun second => ?_) (fun same => by rw [same]) rest more
    exact cons_ofNat_lt (by omega) (by omega)
  · exact cons_ofNat_lt (by omega) (by omega) _ _
  · exact cons_ofNat_lt (by omega) (by omega) _ _
  · refine append_digit_lt below [_, _] [_, _] (fun second => ?_) (fun same => by rw [same]) rest more
    refine append_digit_lt second [_] [_] (fun third => ?_) (fun same => by rw [same])
    exact cons_ofNat_lt (by omega) (by omega)
  · exact cons_ofNat_lt (by omega) (by omega) _ _
  · refine append_digit_lt below [_, _, _] [_, _, _] (fun second => ?_) (fun same => by rw [same]) rest more
    refine append_digit_lt second [_, _] [_, _] (fun third => ?_) (fun same => by rw [same])
    refine append_digit_lt third [_] [_] (fun fourth => ?_) (fun same => by rw [same])
    exact cons_ofNat_lt (by omega) (by omega)

/-- Texts that are in the order of their characters are in that of their bytes. -/
theorem bytes_lt {text other : String} (less : text < other) : bytes text < bytes other := by
  rw [String.lt_iff] at less
  rw [bytes_eq, bytes_eq]
  generalize text.toList = chars at less ⊢
  generalize other.toList = more at less ⊢
  induction chars generalizing more with
  | nil =>
    cases more with
    | nil => exact absurd less (List.not_lt_nil _)
    | cons d more =>
      obtain ⟨lead, rest, encoded⟩ := List.exists_cons_of_ne_nil (String.utf8EncodeChar_ne_nil (c := d))
      rw [List.flatMap_nil, List.flatMap_cons, encoded]
      exact List.nil_lt_cons _ _
  | cons c chars ih =>
    cases more with
    | nil => exact absurd less (List.not_lt_nil _)
    | cons d more =>
      rw [List.flatMap_cons, List.flatMap_cons]
      rcases List.cons_lt_cons_iff.mp less with differ | ⟨rfl, later⟩
      · exact encodeChar_append_lt differ _ _
      · exact List.append_left_lt (ih _ later)

end Text

/-! ## The list of names -/

namespace Table

variable {α : Type}

theorem mem_keys_insert_iff (key other : String) (value : α) (table : Table α) :
    other ∈ keys (insert key value table) ↔ other = key ∨ other ∈ keys table := by
  rw [mem_keys_iff, mem_keys_iff, lookup_insert]
  split
  · next same => simp [same]
  · next different => simp [different]

theorem mem_keys_ofEntries_iff (key : String) (entries : List (String × α)) :
    key ∈ keys (ofEntries entries) ↔ key ∈ entries.map Prod.fst := by
  -- The entries are inserted in turn, so the last one stands outermost.
  induction entries using List.reverseRecOn with
  | nil => rfl
  | append_singleton rest entry ih =>
    have grown : ofEntries (rest ++ [entry]) = insert entry.1 entry.2 (ofEntries rest) := by
      rw [ofEntries, List.foldl_append]
      rfl
    rw [grown, mem_keys_insert_iff, ih, List.map_append, List.mem_append, List.map_singleton, List.mem_singleton,
      or_comm]

end Table

namespace Registry

variable {κ : Kit}

theorem mem_parserNames_iff (registry : Registry κ) (name : String) :
    name ∈ registry.parserNames ↔ ∃ plugin ∈ registry.plugins, plugin.hasParser name := by
  simp only [parserNames, Table.mem_keys_ofEntries_iff, List.map_map, Function.comp_def, List.map_id',
    List.mem_flatMap, Plugin.mem_parserNames_iff]

theorem pairwise_parserNames (registry : Registry κ) : registry.parserNames.Pairwise (· < ·) :=
  Table.pairwise_keys (Table.ordered_ofEntries _)

theorem pairwise_bytes_parserNames (registry : Registry κ) :
    registry.parserNames.Pairwise fun name other => Text.bytes name < Text.bytes other :=
  registry.pairwise_parserNames.imp Text.bytes_lt

/-- Sorting the names of all plugins and then dropping those that repeat the one before gives the list. -/
theorem parserNames_eq_destutter (registry : Registry κ) :
    registry.parserNames = (registry.plugins.flatMap Plugin.parserNames).mergeSort.destutter (· ≠ ·) := by
  have sorted : (registry.plugins.flatMap Plugin.parserNames).mergeSort.Pairwise (· ≤ ·) := by
    have ordered : (registry.plugins.flatMap Plugin.parserNames).mergeSort.Pairwise
        fun name other => decide (name ≤ other) = true := by
      refine List.pairwise_mergeSort (fun name other third first second => ?_) (fun name other => ?_) _
      · exact decide_eq_true (le_trans (of_decide_eq_true first) (of_decide_eq_true second))
      · simpa using le_total name other
    exact ordered.imp of_decide_eq_true
  have ascending := registry.pairwise_parserNames
  rw [sorted.destutter_eq_dedup]
  have others : (registry.plugins.flatMap Plugin.parserNames).mergeSort.dedup.Pairwise (· < ·) :=
    (sorted.sublist (List.dedup_sublist _)).imp₂ (fun _ _ le ne => lt_of_le_of_ne le ne) (List.nodup_dedup _)
  refine List.Perm.eq_of_pairwise (fun _ _ _ _ before after => absurd after (lt_asymm before)) ascending others ?_
  refine (List.perm_ext_iff_of_nodup (ascending.imp ne_of_lt) (List.nodup_dedup _)).mpr fun name => ?_
  rw [mem_parserNames_iff, List.mem_dedup, List.mem_mergeSort, List.mem_flatMap]
  simp only [Plugin.mem_parserNames_iff]

/-! ## The names that parsers are found for -/

theorem isSome_last?_iff (registry : Registry κ) (p : Plugin κ → Bool) :
    (registry.last? p).isSome ↔ ∃ plugin ∈ registry.plugins, p plugin := by
  simp only [last?, List.find?_isSome, List.mem_reverse]

theorem exists_findParser_iff (registry : Registry κ) (name : String) :
    (∃ plugin, registry.findParser name = .ok plugin) ↔ name ≠ "" ∧ name ∈ registry.parserNames := by
  rw [mem_parserNames_iff, ← isSome_last?_iff registry fun plugin => plugin.hasParser name]
  unfold findParser
  by_cases unnamed : name = ""
  · simp [unnamed]
  · rw [if_neg unnamed, and_iff_right unnamed]
    cases registry.last? fun plugin => plugin.hasParser name with
    | none => simp
    | some plugin => simp

open Declared

theorem hasParser_plugin_iff (bundle : Bundle κ) (name : String) :
    bundle.plugin.hasParser name ↔ ∃ declaration ∈ bundle.declarations, parserSource? name declaration ≠ none := by
  have last : bundle.plugin.parser? name = _ := (parser_lastDeclared name).lookup_plugin bundle
  rw [Plugin.hasParser, last, Option.isSome_map, Option.isSome_iff_ne_none, ne_eq, List.getLast?_eq_none_iff,
    List.filterMap_eq_nil_iff]
  simp only [not_forall, exists_prop, ne_eq]

/-- A registry that is put together from bundles lists the names that these declare for parsers: sorted, with
    repetitions dropped, so that their bytes are in strictly increasing order. A parser is found for just the
    names in the list other than the empty one. So the list is that of the names that a parser is found for
    unless a parser is declared for the empty name. -/
theorem parserNames_of_assembled {bundles : List (Bundle κ)} {registry : Registry κ}
    (assembled : Assembled bundles registry) :
    registry.parserNames = (registry.plugins.flatMap Plugin.parserNames).mergeSort.destutter (· ≠ ·) ∧
      (registry.parserNames.Pairwise fun name other => Text.bytes name < Text.bytes other) ∧
      (∀ name, name ∈ registry.parserNames ↔ ¬ Undeclared (parserSource? name) bundles) ∧
      (∀ name, (∃ plugin, registry.findParser name = .ok plugin) ↔ name ≠ "" ∧ name ∈ registry.parserNames) ∧
      ((∀ name, name ∈ registry.parserNames ↔ ∃ plugin, registry.findParser name = .ok plugin) ↔
        Undeclared (parserSource? "") bundles) := by
  have listed (name : String) : name ∈ registry.parserNames ↔ ¬ Undeclared (parserSource? name) bundles := by
    rw [mem_parserNames_iff, assembled.plugins_eq]
    simp only [List.mem_map, exists_exists_and_eq_and, hasParser_plugin_iff, Undeclared, not_forall, exists_prop,
      ne_eq]
  refine ⟨registry.parserNames_eq_destutter, registry.pairwise_bytes_parserNames, listed, registry.exists_findParser_iff,
    ?_⟩
  simp only [exists_findParser_iff, iff_and_self]
  constructor
  · intro always
    by_contra declared
    exact always "" ((listed "").mpr declared) rfl
  · rintro undeclared name member rfl
    exact (listed "").mp member undeclared

section
open Script

def echoing (label treeFormat : String) : ScriptParser := .scripted label { treeFormat, parse := .echo "text" }

/-- A bundle with a parser for the empty name, among others. -/
def unnamed : Bundle kit :=
  ⟨"unnamed", [.parser "z" (echoing "unnamed/z" "plain"), .parser "é" (echoing "unnamed/é" "plain"),
    .parser "" (echoing "unnamed/" "plain")]⟩

def again : Bundle kit := ⟨"again", [.parser "z" (echoing "again/z" "other"), .parser "a" (echoing "again/a" "other")]⟩

/-- The name that two plugins have a parser for is listed once, and the empty name is listed although no parser is
    found for it. -/
theorem parserNames_of_unnamed : ∃ registry : Registry kit,
    Assembled [unnamed, again] registry ∧ registry.parserNames = ["", "a", "z", "é"] ∧
      Text.bytes "z" < Text.bytes "é" ∧ "" ∈ registry.parserNames ∧
      (∃ plugin, registry.findParser "é" = .ok plugin) ∧ registry.findParser "" = .error parserNameRequired := by
  have collects : registerAll {} ([unnamed, again].map Bundle.plugin) { state := {} } = .ok _ _ := rfl
  have assembled : Assembled [unnamed, again] ⟨[unnamed.plugin, again.plugin]⟩ := .collected collects
  have names : (⟨[unnamed.plugin, again.plugin]⟩ : Registry kit).parserNames = ["", "a", "z", "é"] := by decide
  obtain ⟨_, ascending, listed, found, _⟩ := parserNames_of_assembled assembled
  rw [names] at ascending
  have declared : ¬ Undeclared (parserSource? "") [unnamed, again] := by
    intro none
    have := none unnamed List.mem_cons_self _ (List.mem_cons_of_mem _ (List.mem_cons_of_mem _ List.mem_cons_self))
    cases this
  refine ⟨_, assembled, names, ?_, (listed "").mpr declared, (found "é").mpr ⟨by decide, ?_⟩, rfl⟩
  · simp only [List.pairwise_cons] at ascending
    exact ascending.2.2.1 "é" List.mem_cons_self
  · rw [names]
    decide

/-- So the list is not always that of the names that a parser is found for. -/
theorem not_always_found :
    ¬ ∀ (bundles : List (Bundle kit)) (registry : Registry kit), Assembled bundles registry →
      ∀ name, name ∈ registry.parserNames ↔ ∃ plugin, registry.findParser name = .ok plugin := by
  intro always
  have collects : registerAll {} ([unnamed].map Bundle.plugin) { state := {} } = .ok _ _ := rfl
  have listed : "" ∈ (⟨[unnamed.plugin]⟩ : Registry kit).parserNames := by decide
  obtain ⟨plugin, found⟩ := (always [unnamed] ⟨[unnamed.plugin]⟩ (.collected collects) "").mp listed
  cases found

end

end Registry

end Polyglot
