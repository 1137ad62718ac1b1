import Mathlib.Data.List.Forall2
import CompilerAdapter.Text.LetterCase

/-!
# Texts that are equal but for case

Being equal but for case is symmetric. The characters below the letters have no variants of either case.
-/

namespace CompilerAdapter

/-- Two texts of one length differ in the case of characters at most. -/
abbrev Variants (s t : List Char) : Prop := List.Forall₂ (fun c d => sameButCase c d = true) s t

/-- A character is equal but for case to no other one. -/
def Caseless (c : Char) : Prop := ∀ d, sameButCase c d = true → d = c

@[simp] theorem sameButCase_self (c : Char) : sameButCase c c = true := by
  simp [sameButCase]

theorem sameButCase_comm (c d : Char) : sameButCase c d = sameButCase d c := by
  unfold sameButCase
  rw [BEq.comm (a := c), BEq.comm (a := foldCase c)]

theorem Variants.refl (s : List Char) : Variants s s :=
  List.forall₂_same.mpr fun c _ => sameButCase_self c

/-! ### Characters without variants -/

/-- No table leads to a code point below the small letters. -/
theorem lowerCode_of_lt {c : Char} (low : lowerCode c < 'a'.toNat) : lowerCode c = c.toNat := by
  have runs : ∀ run ∈ lowerRuns, ('a'.toNat : Int) ≤ run.first + run.shift := by decide +kernel
  unfold lowerCode at low ⊢
  split at low
  · rename_i run found
    have bound := runs run (List.mem_of_find?_eq_some found)
    have inside := List.find?_some found
    simp only [Bool.and_eq_true, decide_eq_true_eq] at inside
    omega
  · rfl

theorem foldCase_of_lt {c : Char} (low : foldCase c < 'a'.toNat) : foldCase c = c.toNat := by
  have variants : ∀ pair ∈ caseVariants, 'a'.toNat ≤ pair.2 := by decide
  unfold foldCase at low ⊢
  cases found : caseVariants.lookup (lowerCode c) with
  | none =>
    rw [found] at low
    exact lowerCode_of_lt low
  | some code =>
    obtain ⟨before, after, listed, _⟩ := List.lookup_eq_some_iff.mp found
    have bound := variants (lowerCode c, code) (by simp [listed])
    rw [found] at low
    exact absurd bound (Nat.not_le_of_lt low)

theorem caseless_of_lt {c : Char} (low : foldCase c < 'a'.toNat) : Caseless c := by
  intro d same
  unfold sameButCase at same
  rcases (Bool.or_eq_true _ _).mp same with equal | folded
  · exact (beq_iff_eq.mp equal).symm
  · have code : foldCase d = foldCase c := (beq_iff_eq.mp folded).symm
    apply Char.toNat_inj.mp
    rw [← foldCase_of_lt low, ← code, foldCase_of_lt (code ▸ low)]

end CompilerAdapter
