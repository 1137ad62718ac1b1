import CompilerAdapter.Proofs.Regex.CaseFolding
import CompilerAdapter.Proofs.Wildcard.Alignment
import CompilerAdapter.Proofs.Wildcard.SpecLists
import CompilerAdapter.Wildcard.Pattern

/-!
# Exclusion without regard to case

Specs that exclude without regard to case cover the paths of which they cover a variant with regard to case:
`exclusion?_case_closure`. The expressions of such specs fold case, all of them.
-/

namespace CompilerAdapter.Wildcard
open Regex

/-! ### The expressions of excluding specs fold case -/

theorem folds_slash : slash.Folds := CharTest.folds_only '/'

theorem folds_nameChar : nameChar.Folds := by
  apply CharTest.folds_noneOf
  intro c member
  obtain rfl := List.mem_singleton.mp member
  exact caseless_of_lt (by decide)

theorem folds_characters (name : List Char) : (characters .exclude name).Folds := by
  induction name with
  | nil => trivial
  | cons c name ih =>
    refine ⟨?_, ih⟩
    split
    · exact folds_nameChar
    · split
      · exact folds_nameChar
      · exact CharTest.folds_only c

theorem folds_names {written recursive : Bool} {names : List (List Char)} {r : Regex}
    (made : namesRegex? .exclude written recursive names = some r) : r.Folds := by
  apply property_of_names (h := made)
  case empty => exact trivial
  case sequence => exact fun _ _ first later => ⟨first, later⟩
  case option => exact fun _ inner => inner
  case slash => exact folds_slash
  case inner => exact ⟨folds_slash, CharTest.folds_any⟩
  case all => exact CharTest.folds_any
  case leading => exact ⟨CharTest.folds_any, folds_slash⟩
  case component => exact folds_characters

theorem folds_choice {first : Regex} {rest : List Regex} (all : ∀ r ∈ first :: rest, r.Folds) :
    (Regex.choice (.group first) (rest.map .group)).Folds := by
  induction rest generalizing first with
  | nil => exact all first List.mem_cons_self
  | cons next rest ih =>
    rw [List.forall_mem_cons] at all
    exact ⟨all.1, ih all.2⟩

theorem folds_pattern {base : String} {specs : List String} {p : Pattern}
    (made : pattern? .exclude base specs = some p) : p.body.Folds := by
  obtain ⟨first, rest, named, rfl⟩ := pattern?_eq_some made
  refine ⟨folds_choice fun r member => ?_, trivial, folds_slash⟩
  obtain ⟨_, expressed⟩ := named r member
  exact folds_names expressed

/-! ### Main statement -/

/-- Specs exclude without regard to case what they exclude, with regard to case, in some spelling. -/
theorem exclusion?_case_closure (specs : List String) :
    (exclusion? true specs = none ∧ exclusion? false specs = none) ∨
    ∃ exact caseless, exclusion? true specs = some exact ∧ exclusion? false specs = some caseless ∧
      ∀ path : String, caseless.covers path = true ↔
        ∃ variant : String, Variants path.toList variant.toList ∧ exact.covers variant = true := by
  cases made : pattern? .exclude "" specs with
  | none => exact .inl (by simp [exclusion?, made])
  | some p =>
    refine .inr ⟨⟨p, true⟩, ⟨p, false⟩, by simp [exclusion?, made], by simp [exclusion?, made], fun path => ?_⟩
    have folded : Exclusion.covers ⟨p, false⟩ path = true ↔
        ∃ s', Variants path.toList s' ∧ p.test (· == ·) s' = true :=
      Pattern.test_sameButCase_iff (folds_pattern made)
    rw [folded]
    constructor
    · rintro ⟨s', variants, covered⟩
      refine ⟨String.ofList s', ?_, ?_⟩
      · rwa [String.toList_ofList]
      · rw [Exclusion.covers, String.toList_ofList]
        exact covered
    · rintro ⟨variant, variants, covered⟩
      exact ⟨variant.toList, variants, covered⟩

/-- The Kelvin sign and the long s are variants of letters. -/
example : (exclusion? false ["**/k*.ts"]).map (·.covers "LIB/\u212a1.T\u017f\n") = some true := by
  with_unfolding_all decide

end CompilerAdapter.Wildcard
