import CompilerAdapter.Proofs.Regex.Consuming
import CompilerAdapter.Registry.Basic

/-!
# Keys by their pattern

The pattern for keys takes identifiers. Its end is the end of the text or a line feed there, so it takes each identifier
with a line feed behind it as well.
-/

namespace CompilerAdapter.Registry

open Regex

/-- A letter or an underscore, and then letters, digits and underscores, all of them ASCII. -/
def IsIdentifier : List Char → Prop
  | [] => False
  | first :: rest => (first.isAlpha = true ∨ first = '_') ∧ ∀ c ∈ rest, c.isAlphanum = true ∨ c = '_'

variable {c : Char} {s t name : List Char}

/-! ### Letters and digits -/

theorem isUpper_iff : c.isUpper = true ↔ 'A' ≤ c ∧ c ≤ 'Z' := by
  show decide ('A' ≤ c ∧ c ≤ 'Z') = true ↔ _
  rw [decide_eq_true_eq]

theorem isLower_iff : c.isLower = true ↔ 'a' ≤ c ∧ c ≤ 'z' := by
  show (decide ('a' ≤ c) && decide (c ≤ 'z')) = true ↔ _
  rw [Bool.and_eq_true, decide_eq_true_eq, decide_eq_true_eq]

theorem isDigit_iff : c.isDigit = true ↔ '0' ≤ c ∧ c ≤ '9' := by
  show (decide ('0' ≤ c) && decide (c ≤ '9')) = true ↔ _
  rw [Bool.and_eq_true, decide_eq_true_eq, decide_eq_true_eq]

theorem isAlpha_iff : c.isAlpha = true ↔ c.isUpper = true ∨ c.isLower = true := by
  show (c.isUpper || c.isLower) = true ↔ _
  rw [Bool.or_eq_true]

theorem isAlphanum_iff : c.isAlphanum = true ↔ c.isAlpha = true ∨ c.isDigit = true := by
  show (c.isAlpha || c.isDigit) = true ↔ _
  rw [Bool.or_eq_true]

theorem isUnderscore_iff : c = '_' ↔ '_' ≤ c ∧ c ≤ '_' := by
  constructor
  · rintro rfl
    decide
  · intro between
    exact Char.le_antisymm between.2 between.1

theorem passes_within {ranges : List (Char × Char)} :
    Passes (.within ranges) c ↔ ∃ range ∈ ranges, range.1 ≤ c ∧ c ≤ range.2 := by
  simp [Passes, CharTest.accepts]

theorem passes_first :
    Passes (.within [('A', 'Z'), ('a', 'z'), ('_', '_')]) c ↔ c.isAlpha = true ∨ c = '_' := by
  rw [passes_within, isAlpha_iff, isUpper_iff, isLower_iff, isUnderscore_iff, or_assoc]
  simp only [List.mem_cons, List.not_mem_nil, or_false, exists_eq_or_imp, exists_eq_left]

theorem passes_further :
    Passes (.within [('A', 'Z'), ('a', 'z'), ('0', '9'), ('_', '_')]) c ↔ c.isAlphanum = true ∨ c = '_' := by
  rw [passes_within, isAlphanum_iff, isAlpha_iff, isUpper_iff, isLower_iff, isDigit_iff, isUnderscore_iff, or_assoc,
    or_assoc]
  simp only [List.mem_cons, List.not_mem_nil, or_false, exists_eq_or_imp, exists_eq_left]

/-! ### The pattern -/

theorem consumes_keyPattern : keyPattern.body.Consumes s t ↔
    ∃ name, IsIdentifier name ∧ s = name ++ t ∧ (t = [] ∨ t = ['\n']) := by
  constructor
  · intro found
    obtain ⟨u, ⟨first, rfl, start⟩, v, many, w, ⟨rfl, stop⟩, rfl⟩ := found
    obtain ⟨rest, rfl, further⟩ := consumes_many.mp many
    refine ⟨first :: rest, ⟨passes_first.mp start, ?_⟩, rfl, stop⟩
    exact fun c member => passes_further.mp (further c member)
  · intro form
    obtain ⟨name, identifier, rfl, stop⟩ := form
    cases name with
    | nil => cases identifier
    | cons first rest =>
      obtain ⟨start, further⟩ := identifier
      have many : (repeated .zeroOrMore false (char _)).Consumes (rest ++ t) t :=
        consumes_many.mpr ⟨rest, rfl, fun c member => passes_further.mpr (further c member)⟩
      exact ⟨rest ++ t, ⟨first, rfl, passes_first.mpr start⟩, t, many, t, ⟨rfl, stop⟩, rfl⟩

theorem keyPattern_test_iff : keyPattern.test (· == ·) s = true ↔
    IsIdentifier s ∨ ∃ name, IsIdentifier name ∧ s = name ++ ['\n'] := by
  rw [Pattern.test, run_eq_true_iff]
  simp only [and_true]
  constructor
  · intro found
    obtain ⟨t, consumed⟩ := found
    obtain ⟨name, identifier, rfl, rfl | rfl⟩ := consumes_keyPattern.mp consumed
    · left
      rwa [List.append_nil]
    · exact .inr ⟨name, identifier, rfl⟩
  · intro form
    rcases form with identifier | ⟨name, identifier, rfl⟩
    · exact ⟨[], consumes_keyPattern.mpr ⟨s, identifier, by simp, .inl rfl⟩⟩
    · exact ⟨['\n'], consumes_keyPattern.mpr ⟨name, identifier, rfl, .inr rfl⟩⟩

/-- No identifier ends in a line feed. -/
theorem IsIdentifier.not_snoc_lineFeed (identifier : IsIdentifier (name ++ ['\n'])) : False := by
  cases name with
  | nil => exact absurd identifier.1 (by decide)
  | cons first rest => exact absurd (identifier.2 '\n' (by simp)) (by decide)

end CompilerAdapter.Registry
