import Mathlib.Data.List.TakeDrop
import CompilerAdapter.Json.Reader
import CompilerAdapter.Proofs.Number.Numeral

/-!
# Whole numbers in JSON text

A whole number is read back as it was written, if what stands behind it does not go on with it: `readNumber_intText`.
-/

namespace CompilerAdapter.Json

/-- What may stand behind a value: the end of the text, or a mark that divides or closes. -/
def Closing (rest : List Char) : Prop := ∀ c ∈ rest.head?, c = ',' ∨ c = ']' ∨ c = '}'

variable {rest : List Char} {n : Nat}

theorem closing_nil : Closing [] := by simp [Closing]

theorem closing_cons {c : Char} (mark : c = ',' ∨ c = ']' ∨ c = '}') : Closing (c :: rest) := by
  intro d member
  obtain rfl := Option.some.inj member
  exact mark

theorem wholeDigits_of_head_ne {s : List Char} (front : s.head? ≠ some '0') : wholeDigits s = s.span Char.isDigit := by
  unfold wholeDigits
  split
  · exact absurd rfl front
  · rfl

theorem span_isDigit {digits : List Char} (all : ∀ c ∈ digits, c.isDigit = true) (closing : Closing rest) :
    (digits ++ rest).span Char.isDigit = (digits, rest) := by
  have behind : rest.takeWhile Char.isDigit = [] ∧ rest.dropWhile Char.isDigit = rest := by
    cases rest with
    | nil => exact ⟨rfl, rfl⟩
    | cons c more => rcases closing c rfl with rfl | rfl | rfl <;> exact ⟨rfl, rfl⟩
  rw [List.span_eq_takeWhile_dropWhile, List.takeWhile_append_of_pos all, List.dropWhile_append_of_pos all, behind.1,
    behind.2, List.append_nil]

theorem wholeDigits_toDigits (n : Nat) (closing : Closing rest) :
    wholeDigits (Nat.toDigits 10 n ++ rest) = (Nat.toDigits 10 n, rest) := by
  cases n with
  | zero => rfl
  | succ n =>
    have front := Numeral.head?_toDigits (n := n + 1) (by omega)
    rw [wholeDigits_of_head_ne, span_isDigit (fun _ member => Numeral.isDigit_of_mem member) closing]
    obtain ⟨c, digits, shape, _⟩ := Numeral.toDigits_eq_cons (n + 1)
    rw [shape] at front ⊢
    exact front

theorem fractionDigits_closing (closing : Closing rest) : fractionDigits rest = ([], rest) := by
  cases rest with
  | nil => rfl
  | cons c more => rcases closing c rfl with rfl | rfl | rfl <;> rfl

theorem exponent?_closing (closing : Closing rest) : exponent? rest = none := by
  cases rest with
  | nil => rfl
  | cons c more => rcases closing c rfl with rfl | rfl | rfl <;> rfl

theorem head?_toDigits_append (n : Nat) (rest : List Char) : (Nat.toDigits 10 n ++ rest).head? ≠ some '-' := by
  obtain ⟨c, digits, shape, digit⟩ := Numeral.toDigits_eq_cons n
  rw [shape]
  intro minus
  obtain rfl := Option.some.inj minus
  exact absurd digit (by decide)

theorem readNumber_intText {n : Int} (writable : (Number.int n).isWritable = true) (closing : Closing rest) :
    readNumber (intText n ++ rest) = .ok (.int n, rest) := by
  have small := Number.int_isWritable.mp writable
  generalize magnitude : n.natAbs = k at small
  have whole := wholeDigits_toDigits k closing
  have filled : (Nat.toDigits 10 k).isEmpty = false := by
    rw [List.isEmpty_eq_false_iff]
    exact Nat.toDigits_ne_nil
  have digits := Numeral.read_toDigits small
  by_cases negative : n < 0
  · have value : -(k : Int) = n := by omega
    rw [intText_of_neg negative, magnitude]
    simp [readNumber, whole, filled, fractionDigits_closing closing, exponent?_closing closing, digits, value]
  · have value : (k : Int) = n := by omega
    have unsigned := head?_toDigits_append k rest
    rw [intText_of_nonneg (by omega), magnitude]
    unfold readNumber
    split
    rename_i sign
    split at sign
    · rename_i minus
      rw [minus] at unsigned
      exact absurd rfl unsigned
    · obtain ⟨rfl, rfl⟩ := Prod.mk.inj sign
      simp [whole, filled, fractionDigits_closing closing, exponent?_closing closing, digits, value]

end CompilerAdapter.Json
