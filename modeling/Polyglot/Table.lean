/-!
# Tables

A table holds values under keys: its entries stand in the order of their keys, each
key once. `Table.insert` and `Table.erase` keep it so. Lookup is `List.lookup`.
-/

namespace Polyglot

/-- Entries in the order of their keys. -/
abbrev Table (α : Type) := List (String × α)

namespace Table

variable {α : Type}

/-- The keys are in strictly increasing order. -/
def Ordered (table : Table α) : Prop := table.Pairwise fun a b => a.1 < b.1

/-- Puts an entry into a table, in place of the one with the same key. -/
def insert (key : String) (value : α) : Table α → Table α
  | [] => [(key, value)]
  | (other, old) :: rest =>
    if key = other then (key, value) :: rest
    else if key < other then (key, value) :: (other, old) :: rest
    else (other, old) :: insert key value rest

/-- Removes the entry with a key. -/
def erase (key : String) (table : Table α) : Table α := table.filter fun entry => entry.1 ≠ key

/-- The table of entries in any order; a later one replaces an earlier one of the same key. -/
def ofEntries (entries : List (String × α)) : Table α :=
  entries.foldl (fun table (key, value) => insert key value table) []

/-- The keys in increasing order. -/
def keys (table : Table α) : List String := table.map Prod.fst

theorem lookup_insert_self (key : String) (value : α) (table : Table α) :
    (insert key value table).lookup key = some value := by
  induction table with
  | nil => simp [insert]
  | cons head rest ih =>
    obtain ⟨other, old⟩ := head
    simp only [insert]
    split
    · simp
    · split
      · simp
      · next different _ => simp only [List.lookup_cons, beq_eq_false_iff_ne.mpr different, ih]

theorem lookup_insert_of_ne {key other : String} (different : other ≠ key) (value : α) (table : Table α) :
    (insert key value table).lookup other = table.lookup other := by
  induction table with
  | nil => simp [insert, different]
  | cons head rest ih =>
    obtain ⟨first, old⟩ := head
    simp only [insert]
    split
    · next same => subst same; simp only [List.lookup_cons, beq_eq_false_iff_ne.mpr different]
    · split
      · simp only [List.lookup_cons, beq_eq_false_iff_ne.mpr different]
      · simp only [List.lookup_cons, ih]

theorem lookup_insert (key other : String) (value : α) (table : Table α) :
    (insert key value table).lookup other = if other = key then some value else table.lookup other := by
  split
  · next same => subst same; exact lookup_insert_self other value table
  · next different => exact lookup_insert_of_ne different value table

theorem lookup_erase_self (key : String) (table : Table α) : (erase key table).lookup key = none := by
  induction table with
  | nil => rfl
  | cons head rest ih =>
    simp only [erase, List.filter_cons] at ih ⊢
    split
    · next kept =>
      have different : (key == head.1) = false :=
        beq_eq_false_iff_ne.mpr (Ne.symm (of_decide_eq_true kept))
      rw [List.lookup_cons, different]
      exact ih
    · exact ih

theorem lookup_erase_of_ne {key other : String} (different : other ≠ key) (table : Table α) :
    (erase key table).lookup other = table.lookup other := by
  induction table with
  | nil => rfl
  | cons head rest ih =>
    simp only [erase, List.filter_cons] at ih ⊢
    split
    · rw [List.lookup_cons, List.lookup_cons, ih]
    · next removed =>
      have same : head.1 = key := by simpa using removed
      have apart : (other == head.1) = false := beq_eq_false_iff_ne.mpr (same ▸ different)
      rw [List.lookup_cons, apart]
      exact ih

theorem mem_insert {key : String} {value : α} {table : Table α} {entry : String × α}
    (member : entry ∈ insert key value table) : entry = (key, value) ∨ entry ∈ table := by
  induction table with
  | nil => exact Or.inl (by simpa [insert] using member)
  | cons head rest ih =>
    simp only [insert] at member
    split at member
    · rcases List.mem_cons.mp member with first | later
      · exact Or.inl first
      · exact Or.inr (List.mem_cons_of_mem _ later)
    · split at member
      · simpa using member
      · rcases List.mem_cons.mp member with first | later
        · exact Or.inr (by simp [first])
        · exact (ih later).imp_right (List.mem_cons_of_mem _)

private theorem key_lt_of_not_lt {a b : String} (different : a ≠ b) (notBefore : ¬ a < b) : b < a :=
  (Std.le_iff_lt_or_eq.mp (Std.not_lt.mp notBefore)).resolve_right (Ne.symm different)

theorem ordered_insert (key : String) (value : α) {table : Table α} (ordered : Ordered table) :
    Ordered (insert key value table) := by
  induction table with
  | nil => simp [insert, Ordered]
  | cons head rest ih =>
    obtain ⟨first, tail⟩ := List.pairwise_cons.mp ordered
    simp only [insert]
    split
    · next same => exact List.pairwise_cons.mpr ⟨fun entry member => by simpa [same] using first entry member, tail⟩
    · next different =>
      split
      · next before =>
        refine List.pairwise_cons.mpr ⟨fun entry member => ?_, ordered⟩
        rcases List.mem_cons.mp member with here | later
        · simpa [here] using before
        · exact Std.lt_trans before (first entry later)
      · next notBefore =>
        refine List.pairwise_cons.mpr ⟨fun entry member => ?_, ih tail⟩
        rcases mem_insert member with here | later
        · simpa [here] using key_lt_of_not_lt different notBefore
        · exact first entry later

theorem ordered_erase (key : String) {table : Table α} (ordered : Ordered table) : Ordered (erase key table) :=
  ordered.filter _

theorem ordered_foldl_insert (entries : List (String × α)) {table : Table α} (ordered : Ordered table) :
    Ordered (entries.foldl (fun table (key, value) => insert key value table) table) := by
  induction entries generalizing table with
  | nil => exact ordered
  | cons entry rest ih => exact ih (ordered_insert entry.1 entry.2 ordered)

theorem ordered_ofEntries (entries : List (String × α)) : Ordered (ofEntries entries) :=
  ordered_foldl_insert entries List.Pairwise.nil

/-- The keys of a table are those that it has a value for. -/
theorem mem_keys_iff (key : String) (table : Table α) : key ∈ keys table ↔ (table.lookup key).isSome := by
  induction table with
  | nil => simp [keys]
  | cons head rest ih =>
    simp only [keys, List.map_cons, List.mem_cons] at ih ⊢
    rw [List.lookup_cons, ih]
    cases same : key == head.1 with
    | true => simp [beq_iff_eq.mp same]
    | false => simp [beq_eq_false_iff_ne.mp same]

theorem pairwise_keys {table : Table α} (ordered : Ordered table) : (keys table).Pairwise (· < ·) :=
  List.pairwise_map.mpr ordered

end Table

end Polyglot
