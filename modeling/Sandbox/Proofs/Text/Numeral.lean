import Sandbox.Text.Numeral

namespace Sandbox.Text

theorem isDigit_iff (c : Char) : c.isDigit = true ↔ 48 ≤ c.toNat ∧ c.toNat ≤ 57 := by
  simp only [Char.isDigit, Bool.and_eq_true, decide_eq_true_eq, ge_iff_le, UInt32.le_iff_toNat_le]
  rfl

theorem isBlank_of_isDigit {c : Char} (digit : c.isDigit = true) : isBlank c = false := by
  obtain ⟨least, most⟩ := (isDigit_iff c).mp digit
  have apart : ∀ blank ∈ blanks, blank < 48 ∨ 57 < blank := by decide
  rw [isBlank, List.contains_eq_mem, decide_eq_false_iff_not]
  intro member
  have := apart _ member
  omega

theorem trim_eq_self {text : List Char} (solid : ∀ c ∈ text, isBlank c = false) :
    trim text = text := by
  have whole : ∀ rest : List Char, (∀ c ∈ rest, isBlank c = false) →
      rest.dropWhile isBlank = rest := by
    intro rest solid
    cases rest with
    | nil => rfl
    | cons c rest => rw [List.dropWhile_cons_of_neg (by simp [solid c List.mem_cons_self])]
  rw [trim, whole text solid, whole _ (by simpa using solid), List.reverse_reverse]

namespace Numeral

theorem digit?_of_isDigit {c : Char} (digit : c.isDigit = true) :
    digit? c = some (c.toNat - '0'.toNat) := by
  rw [digit?, if_pos]
  exact (isDigit_iff c).mp digit

theorem le_ofDigitChars (text : List Char) (value : Nat) :
    value ≤ Nat.ofDigitChars 10 text value := by
  rw [Nat.ofDigitChars_eq_ofDigitChars_zero]
  exact Nat.le_add_right_of_le (Nat.le_mul_of_pos_left value (Nat.pow_pos (by decide)))

theorem digits?_eq {bound : Nat} {text : List Char} (digits : ∀ c ∈ text, c.isDigit = true)
    {value : Nat} (below : value ≤ bound) : digits? bound text value =
      if Nat.ofDigitChars 10 text value ≤ bound then some (Nat.ofDigitChars 10 text value)
      else none := by
  induction text generalizing value with
  | nil => simp [digits?, below]
  | cons c rest ih =>
    obtain ⟨first, others⟩ := List.forall_mem_cons.mp digits
    have grows := le_ofDigitChars rest (10 * value + (c.toNat - '0'.toNat))
    rw [digits?, digit?_of_isDigit first, Nat.ofDigitChars_cons]
    change (if 10 * value + (c.toNat - '0'.toNat) ≤ bound then _ else none) = _
    split
    · rename_i fits
      exact ih others fits
    · rw [if_neg (by omega)]

theorem parse?_eq {bound : Nat} {text : List Char} (digits : ∀ c ∈ text, c.isDigit = true)
    (nonempty : text ≠ []) : parse? bound text =
      if Nat.ofDigitChars 10 text 0 ≤ bound then some (Nat.ofDigitChars 10 text 0) else none := by
  have unsigned : parse? bound text = unsigned? bound text := by
    unfold parse?
    split
    · exact absurd (digits '+' List.mem_cons_self) (by decide)
    · rfl
  rw [unsigned, unsigned?, if_neg (by simpa using nonempty), digits?_eq digits (Nat.zero_le bound)]

theorem parse?_toDigits (bound n : Nat) :
    parse? bound (Nat.toDigits 10 n) = if n ≤ bound then some n else none := by
  have digits : ∀ c ∈ Nat.toDigits 10 n, c.isDigit = true :=
    fun c member => Nat.isDigit_of_mem_toDigits (by decide) (by decide) member
  rw [parse?_eq digits Nat.toDigits_ne_nil, Nat.ofDigitChars_ten_toDigits]

end Numeral

theorem trim_toDigits (n : Nat) : trim (Nat.toDigits 10 n) = Nat.toDigits 10 n := by
  apply trim_eq_self
  intro c member
  exact isBlank_of_isDigit (Nat.isDigit_of_mem_toDigits (by decide) (by decide) member)

end Sandbox.Text
