import CompilerAdapter.Number.Basic

/-!
# Decimal numerals

A whole number that can be written is read back from its decimal digits. Written numbers do not start with a zero, but
for zero itself.
-/

namespace CompilerAdapter

namespace Numeral

variable {n : Nat}

theorem length_toDigits_le (small : n < 10 ^ maxDigits) : (Nat.toDigits 10 n).length ≤ maxDigits :=
  (Nat.length_toDigits_le_iff (by decide) (by decide)).mpr small

theorem read_toDigits (small : n < 10 ^ maxDigits) : read (Nat.toDigits 10 n) = .ok n := by
  have short := length_toDigits_le small
  unfold read value
  rw [if_neg (by omega), Nat.ofDigitChars_ten_toDigits]

theorem isDigit_of_mem {c : Char} (member : c ∈ Nat.toDigits 10 n) : c.isDigit = true :=
  Nat.isDigit_of_mem_toDigits (by decide) (by decide) member

theorem not_mem_toDigits {c : Char} (other : c.isDigit = false) : c ∉ Nat.toDigits 10 n := fun member =>
  absurd (isDigit_of_mem member) (by simp [other])

theorem toDigits_eq_cons (n : Nat) : ∃ c digits, Nat.toDigits 10 n = c :: digits ∧ c.isDigit = true := by
  obtain ⟨c, digits, shape⟩ := List.exists_cons_of_ne_nil (Nat.toDigits_ne_nil (n := n) (b := 10))
  exact ⟨c, digits, shape, isDigit_of_mem (n := n) (by simp [shape])⟩

theorem head?_toDigits (positive : 0 < n) : (Nat.toDigits 10 n).head? ≠ some '0' := by
  induction n using Nat.strongRecOn with
  | ind n ih =>
    by_cases single : n < 10
    · rw [Nat.toDigits_of_lt_base single]
      simp
      omega
    · have least : 10 ≤ n := by omega
      have front := ih (n / 10) (by omega) (by omega)
      obtain ⟨c, digits, shape, _⟩ := toDigits_eq_cons (n / 10)
      rw [Nat.toDigits_of_base_le (by decide) least, shape]
      rw [shape] at front
      exact front

end Numeral

namespace Number

theorem int_isWritable {n : Int} : (Number.int n).isWritable = true ↔ n.natAbs < 10 ^ Numeral.maxDigits := by
  simp [isWritable]

/-- Numbers of a few digits can be written. -/
theorem isWritable_of_lt {n : Int} {digits : Nat} (small : n.natAbs < 10 ^ digits)
    (few : digits ≤ Numeral.maxDigits) : (Number.int n).isWritable = true :=
  int_isWritable.mpr (Nat.lt_of_lt_of_le small (Nat.pow_le_pow_right (by decide) few))

theorem isWritable_of_le {m n : Int} (writable : (Number.int n).isWritable = true) (lower : 0 ≤ m) (upper : m ≤ n) :
    (Number.int m).isWritable = true := by
  rw [int_isWritable] at writable ⊢
  omega

/-- Whole numbers are in their usual order. -/
theorem less_int {m n : Int} : (Number.int m).less (.int n) = true ↔ m < n := by
  simp [less, compare?, isNaN, dyadic?, Int.compare_eq_lt]

end Number

theorem intText_of_nonneg {n : Int} (h : 0 ≤ n) : intText n = Nat.toDigits 10 n.natAbs := by
  obtain ⟨k, rfl⟩ := Int.eq_ofNat_of_zero_le h
  rfl

theorem intText_of_neg {n : Int} (h : n < 0) : intText n = '-' :: Nat.toDigits 10 n.natAbs := by
  cases n with
  | ofNat k => exact absurd h (by simp)
  | negSucc k => rfl

theorem mem_intText {n : Int} {c : Char} (member : c ∈ intText n) : c = '-' ∨ c.isDigit = true := by
  by_cases negative : n < 0
  · rw [intText_of_neg negative, List.mem_cons] at member
    exact member.imp_right Numeral.isDigit_of_mem
  · rw [intText_of_nonneg (by omega)] at member
    exact .inr (Numeral.isDigit_of_mem member)

theorem not_mem_intText {n : Int} {c : Char} (other : c ≠ '-' ∧ c.isDigit = false) : c ∉ intText n := by
  intro member
  rcases mem_intText member with sign | digit
  · exact other.1 sign
  · exact absurd digit (by simp [other.2])

theorem Numeral.toDigits_injective : Function.Injective (Nat.toDigits 10) := by
  intro m n same
  have value := congrArg (Nat.ofDigitChars 10 · 0) same
  simpa only [Nat.ofDigitChars_ten_toDigits] using value

theorem neg_iff_mem_intText {n : Int} : n < 0 ↔ '-' ∈ intText n := by
  by_cases negative : n < 0
  · rw [intText_of_neg negative]
    exact iff_of_true negative List.mem_cons_self
  · rw [intText_of_nonneg (by omega)]
    exact iff_of_false negative (Numeral.not_mem_toDigits (by decide))

/-- Whole numbers are told apart by their texts. -/
theorem intText_injective : Function.Injective intText := by
  intro m n same
  by_cases negative : m < 0
  · have negative' : n < 0 := by rwa [neg_iff_mem_intText, ← same, ← neg_iff_mem_intText]
    rw [intText_of_neg negative, intText_of_neg negative'] at same
    have size := Numeral.toDigits_injective (List.cons.inj same).2
    omega
  · have positive : ¬ n < 0 := by rwa [neg_iff_mem_intText, ← same, ← neg_iff_mem_intText]
    rw [intText_of_nonneg (by omega), intText_of_nonneg (by omega)] at same
    have size := Numeral.toDigits_injective same
    omega

end CompilerAdapter
