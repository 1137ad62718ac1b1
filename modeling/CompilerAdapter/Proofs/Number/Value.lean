import Mathlib.Data.Rat.Lemmas
import Mathlib.Tactic.FieldSimp
import Mathlib.Tactic.Positivity
import Mathlib.Tactic.Push
import Mathlib.Tactic.Ring
import CompilerAdapter.Number.Basic

/-!
# Numbers by their values

The value of a finite number is a fraction. The tests for whole numbers and for the order, which work on significands
and exponents, are the ones for fractions: `isIntegral_iff` and `less_int_iff`.
-/

namespace CompilerAdapter.Number

/-- The value of a number; none if it is infinite or not a number. -/
def value? (n : Number) : Option ℚ :=
  n.dyadic?.map fun (significand, exponent) => significand * (2 : ℚ) ^ exponent

/-- A whole number that is one or more. -/
def IsCount (n : Number) : Prop := ∃ k : ℤ, 1 ≤ k ∧ n.value? = some (k : ℚ)

theorem value?_int (n : ℤ) : (int n).value? = some (n : ℚ) := by
  simp [value?, dyadic?]

theorem value?_finite (negative : Bool) (mantissa : Nat) (exponent : ℤ) :
    (float (.finite negative mantissa exponent)).value? = some (Binary64.signed negative mantissa * (2 : ℚ) ^ exponent) :=
  rfl

theorem dvd_signed {negative : Bool} {mantissa n : Nat} :
    (n : ℤ) ∣ Binary64.signed negative mantissa ↔ mantissa % n = 0 := by
  unfold Binary64.signed
  rw [← Nat.dvd_iff_mod_eq_zero]
  cases negative
  · exact Int.natCast_dvd_natCast
  · exact (Int.dvd_neg).trans Int.natCast_dvd_natCast

theorem exists_int_iff (significand : ℤ) (exponent : ℤ) :
    (∃ k : ℤ, significand * (2 : ℚ) ^ exponent = k) ↔ 0 ≤ exponent ∨ ((2 ^ exponent.natAbs : ℕ) : ℤ) ∣ significand := by
  rcases Int.le_total 0 exponent with up | down
  · obtain ⟨n, rfl⟩ := Int.eq_ofNat_of_zero_le up
    refine iff_of_true ⟨significand * 2 ^ n, ?_⟩ (.inl up)
    push_cast
    rw [zpow_natCast]
  · obtain ⟨n, rfl⟩ : ∃ n : ℕ, exponent = -n := ⟨exponent.natAbs, by omega⟩
    rw [Int.natAbs_neg, Int.natAbs_natCast, zpow_neg, zpow_natCast]
    have power : (2 : ℚ) ^ n ≠ 0 := by positivity
    constructor
    · intro whole
      obtain ⟨k, same⟩ := whole
      right
      refine ⟨k, ?_⟩
      have product : (significand : ℚ) = 2 ^ n * k := by
        rw [← same]
        field_simp
      exact_mod_cast product
    · intro divides
      rcases divides with none | ⟨k, same⟩
      · obtain rfl : n = 0 := by omega
        exact ⟨significand, by simp⟩
      · refine ⟨k, ?_⟩
        rw [same]
        push_cast
        field_simp

theorem isIntegral_iff (n : Number) : n.isIntegral = true ↔ ∃ k : ℤ, n.value? = some (k : ℚ) := by
  cases n with
  | int n => exact iff_of_true rfl ⟨n, value?_int n⟩
  | float x =>
    cases x with
    | finite negative mantissa exponent =>
      simp only [value?_finite, Option.some.injEq, exists_int_iff, dvd_signed, isIntegral, Binary64.isIntegral,
        Bool.or_eq_true, decide_eq_true_eq, beq_iff_eq]
    | infinite negative => simp [isIntegral, Binary64.isIntegral, value?, dyadic?]
    | nan mark => simp [isIntegral, Binary64.isIntegral, value?, dyadic?]

theorem not_isNaN_of_value? {n : Number} {q : ℚ} (h : n.value? = some q) : n.isNaN = false := by
  cases n with
  | int n => rfl
  | float x => cases x <;> first | rfl | cases h

theorem less_int_iff {n : Number} {q : ℚ} (h : n.value? = some q) (k : ℤ) : n.less (.int k) = true ↔ q < k := by
  have number := not_isNaN_of_value? h
  obtain ⟨⟨significand, exponent⟩, parts, rfl⟩ := Option.map_eq_some_iff.mp h
  have compared : n.less (.int k) = true ↔
      significand * 2 ^ (exponent - min exponent 0).toNat < k * 2 ^ (0 - min exponent 0).toNat := by
    have other : (int k).isNaN = false := rfl
    have whole : (int k).dyadic? = some (k, 0) := rfl
    simp [less, compare?, number, other, parts, whole, Int.compare_eq_lt]
  rw [compared]
  dsimp only
  rcases Int.le_total 0 exponent with up | down
  · obtain ⟨e, rfl⟩ := Int.eq_ofNat_of_zero_le up
    rw [Int.min_eq_right up]
    simp only [Int.sub_zero, Int.toNat_natCast, Int.toNat_zero, pow_zero, mul_one, zpow_natCast]
    exact_mod_cast Iff.rfl
  · obtain ⟨e, rfl⟩ : ∃ e : ℕ, exponent = -e := ⟨exponent.natAbs, by omega⟩
    rw [Int.min_eq_left down]
    have power : (0 : ℚ) < 2 ^ e := by positivity
    simp only [Int.sub_self, Int.toNat_zero, pow_zero, mul_one, zero_sub, neg_neg, Int.toNat_natCast, zpow_neg,
      zpow_natCast]
    rw [← div_eq_mul_inv, div_lt_iff₀ power]
    exact_mod_cast Iff.rfl

/-- A value in units that are not larger than its own. -/
theorem value_in_units (significand : ℤ) {exponent low : ℤ} (fine : low ≤ exponent) :
    (significand : ℚ) * 2 ^ exponent = ((significand * 2 ^ (exponent - low).toNat : ℤ) : ℚ) * 2 ^ low := by
  obtain ⟨n, rfl⟩ : ∃ n : ℕ, exponent = low + n := ⟨(exponent - low).toNat, by omega⟩
  rw [show (low + n - low).toNat = n by omega, zpow_add₀ (by norm_num), zpow_natCast]
  push_cast
  ring

theorem equal_iff {a b : Number} {p q : ℚ} (first : a.value? = some p) (second : b.value? = some q) :
    a.equal b = true ↔ p = q := by
  have numbers : a.isNaN = false ∧ b.isNaN = false := ⟨not_isNaN_of_value? first, not_isNaN_of_value? second⟩
  obtain ⟨⟨m, e⟩, parts, rfl⟩ := Option.map_eq_some_iff.mp first
  obtain ⟨⟨n, f⟩, parts', rfl⟩ := Option.map_eq_some_iff.mp second
  have compared : a.equal b = true ↔ m * 2 ^ (e - min e f).toNat = n * 2 ^ (f - min e f).toNat := by
    simp [equal, compare?, numbers, parts, parts']
  have unit : (2 : ℚ) ^ min e f ≠ 0 := zpow_ne_zero _ two_ne_zero
  dsimp only
  rw [compared, value_in_units m (min_le_left e f), value_in_units n (min_le_right e f), mul_left_inj' unit]
  exact_mod_cast Iff.rfl

theorem equal_zero_iff (n : Number) : n.equal (.int 0) = true ↔ n.value? = some 0 := by
  cases known : n.value? with
  | some q => simpa using equal_iff known (value?_int 0)
  | none =>
    refine iff_of_false ?_ nofun
    cases n with
    | int k => cases known
    | float x =>
      cases x with
      | finite negative mantissa exponent => cases known
      | infinite negative => cases negative <;> decide
      | nan mark => simp [equal, compare?, isNaN]

theorem isCount_iff (n : Number) : n.IsCount ↔ n.isIntegral = true ∧ n.less (.int 1) = false := by
  rw [isIntegral_iff, ← Bool.not_eq_true]
  constructor
  · intro count
    obtain ⟨k, least, same⟩ := count
    refine ⟨⟨k, same⟩, ?_⟩
    rw [less_int_iff same, not_lt]
    exact_mod_cast least
  · intro checked
    obtain ⟨⟨k, same⟩, enough⟩ := checked
    rw [less_int_iff same, not_lt] at enough
    exact ⟨k, by exact_mod_cast enough, same⟩

end CompilerAdapter.Number
