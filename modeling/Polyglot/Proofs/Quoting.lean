import Mathlib.Data.Nat.Digits.Defs
import Polyglot.Toml.Document

/-!
# Texts in documents

A document is read statement by statement (`statements_cons`, `read?_of_statements`). Every text can be the value of a
key in a document: between double quotes, with each character as the escape that has its number (`read?_entry`).
-/

namespace Polyglot.Toml

/-! ## Values and statements -/

section

variable {text begun spelled ended after rest : List Char}

/-- A value that begins with a quote is a text. -/
theorem value_of_text {word : String} (quotes : text.head? = some '"' ∨ text.head? = some '\'')
    (scanned : Scan.text text = some (word, rest)) (depth : Nat) :
    Scan.value depth text = some (.text word, rest) := by
  rw [Scan.value.eq_def]
  simp only [bind, StateT.bind, Scan.peek, Option.bind_some]
  rcases quotes with opening | opening
  · simp [opening, scanned, Functor.map, StateT.map]
  · simp [opening, scanned, Functor.map, StateT.map]

/-- A value that begins with neither a quote nor a bracket is what its token spells. -/
theorem value_of_token {c : Char} {token : List Char} {value : Value} (opening : text.head? = some c)
    (bare : ¬ (c = '"' ∨ c = '\'') ∧ ¬ (c = '[' ∨ c = '{')) (scanned : Scan.token text = some (token, rest))
    (spells : scalar? token = some value) (depth : Nat) : Scan.value depth text = some (value, rest) := by
  rw [Scan.value.eq_def]
  simp only [bind, StateT.bind, Scan.peek, Option.bind_some, opening, Bool.or_eq_true, decide_eq_true_eq, if_neg bare.1,
    if_neg bare.2, scanned, spells]
  rfl

theorem statement_of_entry {path : List String} {value : Value} (notHeader : text.head? ≠ some '[')
    (keyed : Scan.key text = some (path, '=' :: spelled))
    (valued : Scan.value nestingLimit (spelled.dropWhile isSpace) = some (value, rest)) :
    Scan.statement text = some (.entry path value, rest) := by
  have opening : Scan.acceptIf '[' text = some (false, text) := by
    cases text with
    | nil => rfl
    | cons c text => exact if_neg fun same => notHeader (congrArg some same)
  simp only [Scan.statement, bind, StateT.bind, opening, keyed, Scan.accept, Scan.spaces, Option.bind_some,
    Bool.false_eq_true, if_false, if_true, Functor.map, StateT.map, valued, pure]

theorem statements_of_blank (blank : dropBlanks false text = some []) (fuel : Nat) :
    Scan.statements (fuel + 1) text = some ([], []) := by
  rw [Scan.statements]
  simp only [bind, StateT.bind, Scan.blanks, blank]
  rfl

theorem statements_cons {statement : Statement} {more : List Statement} {fuel : Nat}
    (begins : dropBlanks false text = some begun) (nonempty : begun ≠ [])
    (read : Scan.statement begun = some (statement, ended)) (ends : Scan.lineEnd ended = some ((), after))
    (later : Scan.statements fuel after = some (more, rest)) :
    Scan.statements (fuel + 1) text = some (statement :: more, rest) := by
  obtain ⟨c, others, rfl⟩ := List.exists_cons_of_ne_nil nonempty
  have peeked : Scan.peek (c :: others) = some (some c, c :: others) := rfl
  rw [Scan.statements]
  simp only [bind, StateT.bind, Scan.blanks, begins, Option.map_some, Option.bind_some, peeked, read, ends, later]
  rfl

theorem read?_of_statements {text : String} {statements : List Statement} {fuel : Nat}
    (length : (dropMark text.toList).length + 1 = fuel)
    (read : Scan.statements fuel (dropMark text.toList) = some (statements, rest)) :
    read? text = ofStatements statements := by
  simp only [read?, length, read]
  rfl

end

/-! ## Quoting -/

/-- The last hexadecimal digits of a number, as many as `count`. -/
def hexadecimal : Nat → Nat → List Char
  | 0, _ => []
  | count + 1, n => hexadecimal count (n / 16) ++ [(n % 16).digitChar]

/-- A character as the escape with its number. -/
def escaped (c : Char) : List Char := '\\' :: 'U' :: hexadecimal 8 c.toNat

/-- A text between double quotes. -/
def quoted (text : List Char) : List Char := '"' :: text.flatMap escaped ++ ['"']

theorem value?_digitChar {d : Nat} (small : d < 16) : Digits.value? d.digitChar = some d := by
  decide +revert

theorem length_hexadecimal (count n : Nat) : (hexadecimal count n).length = count := by
  induction count generalizing n with
  | zero => rfl
  | succ count ih => simp [hexadecimal, ih]

theorem isDigitOf_of_mem_hexadecimal {count n : Nat} {c : Char} (member : c ∈ hexadecimal count n) :
    Digits.isDigitOf 16 c = true := by
  induction count generalizing n with
  | zero => cases member
  | succ count ih =>
    rcases List.mem_append.mp member with member | member
    · exact ih member
    · obtain rfl := List.mem_singleton.mp member
      have small : n % 16 < 16 := Nat.mod_lt _ (by decide)
      simp [Digits.isDigitOf, value?_digitChar small, small]

theorem number_hexadecimal {count n : Nat} (fits : n < 16 ^ count) : Digits.number 16 (hexadecimal count n) = n := by
  induction count generalizing n with
  | zero =>
    obtain rfl : n = 0 := by simpa using fits
    rfl
  | succ count ih =>
    have small : n % 16 < 16 := Nat.mod_lt _ (by decide)
    rw [hexadecimal, Digits.number_append_singleton, value?_digitChar small, ih (by rw [Nat.pow_succ] at fits; omega)]
    exact Nat.div_add_mod n 16

theorem escape_escaped (c : Char) (rest : List Char) :
    escape ('U' :: hexadecimal 8 c.toNat ++ rest) = some (c, rest) := by
  have length := length_hexadecimal 8 c.toNat
  have number : Digits.number 16 (hexadecimal 8 c.toNat) = c.toNat := by
    have valid := c.valid
    simp only [UInt32.isValidChar, Nat.isValidChar] at valid
    refine number_hexadecimal ?_
    show c.val.toNat < _
    omega
  have digits : (hexadecimal 8 c.toNat).all (Digits.isDigitOf 16) = true :=
    List.all_eq_true.mpr fun _ member => isDigitOf_of_mem_hexadecimal member
  have valid : c.toNat.isValidChar := c.valid
  simp [escape, numberedEscape, length, number, digits, valid]

theorem basicBody_escaped (text rest : List Char) {fuel : Nat} (enough : text.length < fuel) :
    basicBody false fuel (text.flatMap escaped ++ '"' :: rest) = some (text, rest) := by
  induction text generalizing fuel with
  | nil =>
    obtain ⟨fuel, rfl⟩ := Nat.exists_eq_succ_of_ne_zero (Nat.ne_of_gt enough)
    simp [basicBody, closing?]
  | cons c text ih =>
    obtain ⟨fuel, rfl⟩ := Nat.exists_eq_succ_of_ne_zero (Nat.ne_of_gt (Nat.lt_of_le_of_lt (Nat.zero_le _) enough))
    have step := escape_escaped c (text.flatMap escaped ++ '"' :: rest)
    have more := ih (Nat.lt_of_succ_lt_succ enough)
    have noQuote : closing? '"' false
        ('\\' :: 'U' :: hexadecimal 8 c.toNat ++ (text.flatMap escaped ++ '"' :: rest)) = none := rfl
    simp only [List.flatMap_cons, escaped, List.cons_append, List.append_assoc, basicBody] at step noQuote more ⊢
    simp [noQuote, step, more, push]

theorem length_lt_quoted (text rest : List Char) : text.length < (text.flatMap escaped ++ '"' :: rest).length := by
  have each (c : Char) : 1 ≤ (escaped c).length := by simp [escaped]
  have whole : text.length ≤ (text.flatMap escaped).length := by
    induction text with
    | nil => exact Nat.le_refl 0
    | cons c text ih =>
      have first := each c
      simp only [List.length_cons, List.flatMap_cons, List.length_append]
      omega
  simp only [List.length_append, List.length_cons]
  omega

theorem text_quoted (text : List Char) : Scan.text (quoted text) = some (String.ofList text, []) := by
  have notTriple : startsTriple '"' (quoted text) = false ∧ startsTriple '\'' (quoted text) = false := by
    cases text with
    | nil => decide
    | cons c text => exact ⟨by simp [startsTriple, quoted, escaped], by simp [startsTriple, quoted, escaped]⟩
  simp only [Scan.text, notTriple, Bool.false_eq_true, if_false]
  simp only [quoted, List.cons_append, Scan.lineText, Scan.basic]
  rw [basicBody_escaped text [] (length_lt_quoted text [])]
  rfl

theorem value_quoted (text : List Char) (depth : Nat) :
    Scan.value depth (quoted text) = some (.text (String.ofList text), []) :=
  value_of_text (.inl rfl) (text_quoted text) depth

/-! ## Documents of one key -/

/-- A bare key is neither a header nor blank. -/
theorem opening_of_isKeyChar {c : Char} (bare : isKeyChar c = true) :
    c ≠ '[' ∧ c ≠ '\n' ∧ c ≠ '\r' ∧ c ≠ '#' ∧ isSpace c = false ∧ c ≠ '\uFEFF' := by
  refine ⟨?_, ?_, ?_, ?_, ?_, ?_⟩
  case refine_5 =>
    by_contra space
    simp only [isSpace, Bool.not_eq_false, Bool.or_eq_true, decide_eq_true_eq] at space
    rcases space with rfl | rfl <;> exact absurd bare (by decide)
  all_goals
    rintro rfl
    exact absurd bare (by decide)

variable {first : Char} {rest text : List Char} {parts : List String}

theorem dropMark_bare (bare : isKeyChar first = true) (rest : List Char) :
    dropMark (first :: rest) = first :: rest := by
  unfold dropMark
  split
  · next same => exact absurd (List.cons.inj same).1 (opening_of_isKeyChar bare).2.2.2.2.2
  · rfl

theorem dropBlanks_bare (bare : isKeyChar first = true) (rest : List Char) :
    dropBlanks false (first :: rest) = some (first :: rest) := by
  obtain ⟨_, newline, returns, comment, space, _⟩ := opening_of_isKeyChar bare
  simp [dropBlanks, newline, returns, comment, space]

/-- Any text can be the value of a key in a document. -/
theorem read?_entry (bare : isKeyChar first = true)
    (keyed : Scan.key (first :: rest) = some (parts, '=' :: ' ' :: quoted text)) :
    read? (String.ofList (first :: rest)) = ofStatements [.entry parts (.text (String.ofList text))] := by
  have notHeader : (first :: rest).head? ≠ some '[' := fun same =>
    (opening_of_isKeyChar bare).1 (Option.some.inj same)
  have unmarked : dropMark (String.ofList (first :: rest)).toList = first :: rest := by
    rw [String.toList_ofList, dropMark_bare bare]
  have entry := statement_of_entry notHeader keyed (value_quoted text nestingLimit)
  have read := statements_cons (dropBlanks_bare bare rest) nofun entry rfl (statements_of_blank rfl rest.length)
  exact read?_of_statements (congrArg (List.length · + 1) unmarked) (unmarked ▸ read)

end Polyglot.Toml
