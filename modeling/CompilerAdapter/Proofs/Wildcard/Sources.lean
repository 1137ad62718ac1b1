import CompilerAdapter.Proofs.Regex.Reading
import CompilerAdapter.Proofs.Wildcard.Alignment
import CompilerAdapter.Proofs.Wildcard.SpecLists
import CompilerAdapter.Wildcard.Pattern

/-!
# The texts of patterns

The text of every pattern that specs have is read again, and as a pattern that matches the same: `patterns_are_read`.
-/

namespace CompilerAdapter.Wildcard
open Regex

variable {usage : Usage} {base : String} {specs : List String} {p : Pattern}

/-! ### Specs -/

theorem isWritten_asterisk : (asterisk usage).isWritten .sequence = true := by
  cases usage <;> rfl

theorem isWritten_characters (name : List Char) : (characters usage name).isWritten .sequence = true := by
  induction name with
  | nil => rfl
  | cons c rest ih =>
    refine isWritten_seq.mpr ⟨?_, ih⟩
    split
    · exact isWritten_asterisk
    · split <;> rfl

theorem isWritten_visibleCharacters (name : List Char) : (visibleCharacters usage name).isWritten .sequence = true := by
  unfold visibleCharacters
  split
  · exact isWritten_seq.mpr ⟨isWritten_asterisk, isWritten_characters _⟩
  · exact isWritten_characters _
  · exact isWritten_characters _

theorem isWritten_component (name : List Char) : (component usage name).isWritten .sequence = true := by
  unfold component
  split
  · exact isWritten_characters name
  · split
    · exact isWritten_visibleCharacters name
    · exact isWritten_visibleCharacters name

theorem isWritten_names {names : List (List Char)} {written recursive : Bool} {r : Regex}
    (named : namesRegex? usage written recursive names = some r) : r.isWritten .sequence = true := by
  apply property_of_names (h := named)
  case empty => rfl
  case sequence => exact fun _ _ first later => isWritten_seq.mpr ⟨first, later⟩
  case option => exact fun _ inner => isWritten_choice_of_sequence inner
  case slash => rfl
  case inner => cases usage <;> rfl
  case all => rfl
  case leading => cases usage <;> rfl
  case component => exact isWritten_component

/-! ### Patterns -/

theorem isWritten_choice {first : Regex} {rest : List Regex}
    (written : ∀ r ∈ first :: rest, r.isWritten .sequence = true) :
    (Regex.choice (.group first) (rest.map .group)).isWritten .choice = true := by
  have head : first.isWritten .choice = true := isWritten_choice_of_sequence (written first List.mem_cons_self)
  induction rest generalizing first with
  | nil => exact head
  | cons next rest ih =>
    rw [List.forall_mem_cons] at written
    have later := ih written.2 (isWritten_choice_of_sequence (written.2 next List.mem_cons_self))
    exact Bool.and_eq_true_iff.mpr ⟨head, later⟩

theorem isWritten_pattern (made : pattern? usage base specs = some p) : p.body.isWritten .sequence = true := by
  obtain ⟨first, rest, named, rfl⟩ := pattern?_eq_some made
  have choice : (Regex.choice (.group first) (rest.map .group)).isWritten .choice = true := by
    refine isWritten_choice fun r member => ?_
    obtain ⟨_, expressed⟩ := named r member
    exact isWritten_names expressed
  have ends : (terminator usage).isWritten .sequence = true := by cases usage <;> rfl
  exact isWritten_seq.mpr ⟨choice, ends⟩

/-- The text of every pattern is an expression, and says what the pattern says. -/
theorem patterns_are_read (usage : Usage) (base : String) (specs : List String) :
    (pattern? usage base specs = none ∨ ∃ p q, pattern? usage base specs = some p ∧
      Pattern.read p.source = .ok q ∧ q.test = p.test) ∧
    ∀ caseSensitive, ∃ found, readExclusion caseSensitive specs = .ok found ∧
      found.map Exclusion.covers = (exclusion? caseSensitive specs).map Exclusion.covers := by
  refine ⟨?_, fun caseSensitive => ?_⟩
  · cases made : pattern? usage base specs with
    | none => exact .inl rfl
    | some p =>
      obtain ⟨q, read, same⟩ := Pattern.read_source (isWritten_pattern made)
      exact .inr ⟨p, q, rfl, read, same⟩
  · unfold readExclusion exclusion?
    cases made : pattern? .exclude "" specs with
    | none => exact ⟨none, rfl, rfl⟩
    | some p =>
      obtain ⟨q, read, same⟩ := Pattern.read_source (isWritten_pattern made)
      refine ⟨some ⟨q, caseSensitive⟩, ?_, ?_⟩
      · dsimp only
        rw [read]
        rfl
      · refine congrArg some (funext fun path => ?_)
        unfold Exclusion.covers
        rw [same]

end CompilerAdapter.Wildcard
