import Mathlib.Data.List.Basic
import Mathlib.Data.List.Induction
import Mathlib.Data.Nat.Digits.Defs
import Polyglot.Settings.Environment
import Polyglot.Settings.Reading

/-!
# Verbatim values

The value of a variable stands for a scalar, and where a text is wanted the scalar is spelled again. What comes of it is
the value itself when it is a truth value in small letters, an integer without a needless sign or zero, a number in its
shortest text, or none of these (`Environment.spelled_scalarOf_iff`).
-/

namespace Polyglot

/-! ## Numerals -/

namespace Digits

theorem exists_of_isDigit {c : Char} (digit : c.isDigit = true) :
    ∃ d < 10, value? c = some d ∧ c = d.digitChar := by
  obtain ⟨low, high⟩ := Char.isDigit_iff_toNat.mp digit
  have least : '0' ≤ c := by rwa [Char.le_def, UInt32.le_iff_toNat_le]
  have greatest : c ≤ '9' := by rwa [Char.le_def, UInt32.le_iff_toNat_le]
  have small : c.toNat - '0'.toNat < 10 := by
    simp only [Char.reduceToNat] at low high ⊢
    omega
  refine ⟨c.toNat - '0'.toNat, small, ?_, ?_⟩
  · simp [value?, least, greatest]
  · refine Char.toNat_inj.mp ?_
    rw [Nat.toNat_digitChar_of_lt_ten small]
    simp only [Char.reduceToNat] at low ⊢
    omega

theorem toDigits_number {digits : List Char} (all : ∀ c ∈ digits, c.isDigit = true) (nonempty : digits ≠ [])
    (short : digits.head? ≠ some '0' ∨ digits = ['0']) : Nat.toDigits 10 (number 10 digits) = digits := by
  induction digits using List.reverseRecOn with
  | nil => exact absurd rfl nonempty
  | append_singleton front c ih =>
    obtain ⟨d, small, value, rfl⟩ := exists_of_isDigit (all c (by simp))
    rw [number_append_singleton, value, Option.getD_some]
    by_cases alone : front = []
    · subst alone
      simpa [number] using Nat.toDigits_of_lt_base small
    · have notZero : front.head? ≠ some '0' := by
        rcases short with short | short
        · rwa [List.head?_append_of_ne_nil _ alone] at short
        · have := congrArg List.length short
          simp at this
          exact absurd this alone
      have before := ih (fun c member => all c (by simp [member])) alone (.inl notZero)
      have positive : 0 < number 10 front := by
        by_contra zero
        rw [Nat.eq_zero_of_not_pos zero, Nat.toDigits_zero] at before
        simp [← before] at notZero
      rw [← Nat.toDigits_append_toDigits (by decide) positive small, before, Nat.toDigits_of_lt_base small]

theorem number_lt {digits : List Char} (all : ∀ c ∈ digits, c.isDigit = true) :
    number 10 digits < 10 ^ digits.length := by
  induction digits using List.reverseRecOn with
  | nil => simp [number]
  | append_singleton front c ih =>
    obtain ⟨d, small, value, _⟩ := exists_of_isDigit (all c (by simp))
    have before := ih fun c member => all c (by simp [member])
    rw [number_append_singleton, value, Option.getD_some, List.length_append, List.length_singleton, Nat.pow_succ]
    omega

/-- Digits are those that spell their number when no zero stands before the others. -/
theorem toDigits_number_iff {digits : List Char} (all : ∀ c ∈ digits, c.isDigit = true) (nonempty : digits ≠ []) :
    Nat.toDigits 10 (number 10 digits) = digits ↔ digits.head? ≠ some '0' ∨ digits = ['0'] := by
  refine ⟨fun same => ?_, toDigits_number all nonempty⟩
  by_contra long
  push Not at long
  obtain ⟨zero, more⟩ := long
  obtain ⟨c, rest, rfl⟩ := List.exists_cons_of_ne_nil nonempty
  cases zero
  -- The zero adds nothing to the number, which so has fewer digits.
  have value : number 10 ('0' :: rest) = number 10 rest := rfl
  have bound : (Nat.toDigits 10 (number 10 rest)).length ≤ rest.length := by
    refine (Nat.length_toDigits_le_iff (by decide) ?_).mpr (number_lt fun c member => all c (by simp [member]))
    exact List.length_pos_of_ne_nil fun none => more (none ▸ rfl)
  rw [value] at same
  rw [same, List.length_cons] at bound
  exact absurd bound (Nat.not_succ_le_self _)

end Digits

namespace Numeral

/-- A numeral as integers are spelled: no plus sign, no zero before other digits, and no minus sign before a zero. -/
def isCanonical : List Char → Bool
  | '+' :: _ => false
  | '-' :: digits => digits.head? ≠ some '0'
  | digits => digits.head? ≠ some '0' || digits = ['0']

theorem digits?_eq_some_iff {text : List Char} {n : Nat} :
    digits? text = some n ↔ text ≠ [] ∧ (∀ c ∈ text, c.isDigit = true) ∧ Digits.number 10 text = n := by
  simp only [digits?, Option.ite_none_right_eq_some, Bool.and_eq_true, decide_eq_true_eq, List.all_eq_true, and_assoc,
    Option.some.injEq]

/-- A signed numeral is digits after a sign, if any. -/
theorem exists_of_signed? {text : List Char} {n : Int} (reads : signed? text = some n) :
    ∃ digits, digits ≠ [] ∧ (∀ c ∈ digits, c.isDigit = true) ∧
      (text = digits ∧ n = Digits.number 10 digits ∨ text = '+' :: digits ∧ n = Digits.number 10 digits ∨
        text = '-' :: digits ∧ n = -Digits.number 10 digits) := by
  unfold signed? at reads
  have shape : text = '-' :: (splitSign text).2 ∧ (splitSign text).1 = true ∨
      text = '+' :: (splitSign text).2 ∧ (splitSign text).1 = false ∨
        text = (splitSign text).2 ∧ (splitSign text).1 = false := by
    unfold splitSign
    split <;> simp
  cases found : digits? (splitSign text).2 with
  | none => simp only [found, reduceCtorEq] at reads
  | some number =>
    simp only [found, Option.ite_none_right_eq_some, Option.some.injEq] at reads
    obtain ⟨nonempty, all, rfl⟩ := digits?_eq_some_iff.mp found
    refine ⟨(splitSign text).2, nonempty, all, ?_⟩
    rcases shape with ⟨same, sign⟩ | ⟨same, sign⟩ | ⟨same, sign⟩
    · exact .inr (.inr ⟨same, by simp [← reads.2, sign]⟩)
    · exact .inr (.inl ⟨same, by simp [← reads.2, sign]⟩)
    · exact .inl ⟨same, by simp [← reads.2, sign]⟩

theorem toList_toString (n : Int) :
    (toString n).toList = if 0 ≤ n then Nat.toDigits 10 n.toNat else '-' :: Nat.toDigits 10 (-n).toNat := by
  rw [Int.toString_eq_repr, Int.repr_eq_if]
  split <;> simp [Nat.toList_repr]

/-- An integer is spelled as the numeral that it is read from when this is canonical. -/
theorem toString_eq_iff {text : List Char} {n : Int} (reads : signed? text = some n) :
    (toString n).toList = text ↔ isCanonical text = true := by
  obtain ⟨digits, nonempty, all, shape⟩ := exists_of_signed? reads
  obtain ⟨first, rest, rfl⟩ := List.exists_cons_of_ne_nil nonempty
  have digit : first.isDigit = true := all first List.mem_cons_self
  have spelled := Digits.toDigits_number_iff all nonempty
  rw [toList_toString]
  rcases shape with ⟨rfl, rfl⟩ | ⟨rfl, rfl⟩ | ⟨rfl, rfl⟩
  · have notPlus : first ≠ '+' := by rintro rfl; simp at digit
    have notMinus : first ≠ '-' := by rintro rfl; simp at digit
    simp [isCanonical, notPlus, notMinus, spelled]
  · simp only [isCanonical, Bool.false_eq_true, iff_false, Int.natCast_nonneg, if_true, Int.toNat_natCast]
    intro same
    have plus : '+' ∈ Nat.toDigits 10 (Digits.number 10 (first :: rest)) := same ▸ List.mem_cons_self
    exact absurd (Nat.isDigit_of_mem_toDigits (by decide) (by decide) plus) (by decide)
  · rcases Nat.eq_zero_or_pos (Digits.number 10 (first :: rest)) with zero | positive
    · -- Without a sign the numeral could only be a zero.
      rw [zero, Nat.toDigits_zero] at spelled
      have begins : first = '0' := by
        by_contra other
        have same := spelled.mpr (.inl (by simpa using other))
        cases same
        exact other rfl
      subst begins
      simp [zero, isCanonical]
    · have negative : ¬ 0 ≤ -(Digits.number 10 (first :: rest) : Int) := by omega
      have notZero : first :: rest ≠ ['0'] := by
        intro same
        rw [same] at positive
        exact absurd positive (by decide)
      simp only [negative, if_false, Int.neg_neg, Int.toNat_natCast, List.cons.injEq, true_and, spelled, notZero,
        or_false, isCanonical, decide_eq_true_eq]

end Numeral

/-! ## Values of variables -/

namespace Environment

/-- Whether the value of a variable is spelled as the scalar that it stands for. -/
def isVerbatim (value : String) : Bool :=
  match scalarOf value with
  | .bool _ => value = "true" || value = "false"
  | .integer _ => Numeral.isCanonical value.toList
  | .real x => value = Layout.plain.text x
  | .text _ => true

/-- What the value of a variable stands for, by what it reads as. -/
inductive Reads (value : String) : Scalar → Prop
  | truth (word : String.ofList (value.toList.map Char.toLower) = "true") : Reads value (.bool true)
  | falsehood (word : String.ofList (value.toList.map Char.toLower) = "false") : Reads value (.bool false)
  | integer {n : Int} (numeral : Numeral.signed? value.toList = some n) : Reads value (.integer n)
  | real {x : Binary64} (numeral : Numeral.real? value.toList = some x) : Reads value (.real x)
  | text : Reads value (.text value)

theorem reads_scalarOf (value : String) : Reads value (scalarOf value) := by
  unfold scalarOf
  dsimp only
  split
  · next word => exact .truth word
  · split
    · next word => exact .falsehood word
    · split
      · next numeral => exact .integer numeral
      · split
        · next numeral => exact .real numeral
        · exact .text

/-- The value of a variable is what becomes of it as a text when it is verbatim. -/
theorem spelled_scalarOf_iff (value : String) : (scalarOf value).spelled = value ↔ isVerbatim value = true := by
  have reads := reads_scalarOf value
  unfold isVerbatim
  generalize scalarOf value = scalar at reads ⊢
  cases reads with
  | truth word =>
    have notFalse : value ≠ "false" := by
      rintro rfl
      exact absurd word (by decide)
    simp [Scalar.spelled, notFalse, eq_comm]
  | falsehood word =>
    have notTrue : value ≠ "true" := by
      rintro rfl
      exact absurd word (by decide)
    simp [Scalar.spelled, notTrue, eq_comm]
  | integer numeral =>
    simp only [Scalar.spelled, ← Numeral.toString_eq_iff numeral, ← String.toList_inj]
  | real numeral => simp [Scalar.spelled, eq_comm]
  | text => simp [Scalar.spelled]

example : isVerbatim "debug" = true ∧ isVerbatim "True" = false ∧ isVerbatim "-7" = true ∧ isVerbatim "+7" = false ∧
    isVerbatim "1.5" = true ∧ isVerbatim "1e2" = false := by
  decide +kernel

end Environment

end Polyglot
