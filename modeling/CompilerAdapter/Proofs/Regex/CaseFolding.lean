import CompilerAdapter.Proofs.Regex.Consuming
import CompilerAdapter.Proofs.Text.LetterCase

/-!
# Matching without regard to case

An expression that does not look ahead matches a text without regard to case exactly if it matches a variant of the
text: `test_sameButCase_iff`. Its tests have to allow for case one by one (`CharTest.Folds`).
-/

namespace CompilerAdapter

/-- Without regard to case a test passes the characters of which it passes a variant. -/
def CharTest.Folds (test : CharTest) : Prop :=
  ∀ c, test.accepts sameButCase c = true ↔ ∃ d, sameButCase c d = true ∧ Regex.Passes test d

theorem CharTest.folds_only (c : Char) : Folds (.only c) := by
  intro x
  simp only [Regex.passes_only, exists_eq_right]
  exact Bool.eq_iff_iff.mp (sameButCase_comm c x)

theorem CharTest.folds_any : Folds .any := by
  have newline : Caseless '\n' := caseless_of_lt (by decide)
  intro x
  constructor
  · intro pass
    exact ⟨x, sameButCase_self x, pass⟩
  · rintro ⟨d, same, pass⟩
    rw [Regex.passes_any] at pass
    refine Regex.passes_any.mpr fun feed => pass ?_
    exact newline d (feed ▸ same)

theorem CharTest.folds_noneOf {chars : List Char} (caseless : ∀ c ∈ chars, Caseless c) : Folds (.noneOf chars) := by
  intro x
  have outside : accepts sameButCase (.noneOf chars) x = true ↔ ∀ c ∈ chars, ¬ sameButCase c x = true := by
    simp [accepts]
  rw [outside]
  constructor
  · intro free
    exact ⟨x, sameButCase_self x, Regex.passes_noneOf.mpr fun member => free x member (sameButCase_self x)⟩
  · rintro ⟨d, same, pass⟩ c member equal
    obtain rfl := caseless c member x equal
    obtain rfl := caseless x member d same
    exact Regex.passes_noneOf.mp pass member

namespace Regex

/-- The tests of an expression fold, and it does not look ahead. -/
def Folds : Regex → Prop
  | .empty | .finish => True
  | .char test => test.Folds
  | .seq first second => first.Folds ∧ second.Folds
  | .alt left right => left.Folds ∧ right.Folds
  | .group inner | .repeated _ _ inner => inner.Folds
  | .notAhead _ => False

/-! ### Steps up to case -/

/-- One relation leads to a text up to case exactly if the other leads to it from a variant. -/
def Shadows (step step' : List Char → List Char → Prop) : Prop :=
  ∀ s t', (∃ t, step s t ∧ Variants t t') ↔ ∃ s', Variants s s' ∧ step' s' t'

variable {first first' second second' : List Char → List Char → Prop}

theorem Shadows.refl : Shadows (fun s t => t = s) (fun s t => t = s) := by
  intro s t'
  simp

theorem Shadows.comp (ahead : Shadows first first') (behind : Shadows second second') :
    Shadows (fun s t => ∃ u, first s u ∧ second u t) (fun s t => ∃ u, first' s u ∧ second' u t) := by
  intro s t'
  constructor
  · rintro ⟨t, ⟨u, one, other⟩, rest⟩
    obtain ⟨u', between, other'⟩ := (behind u t').mp ⟨t, other, rest⟩
    obtain ⟨s', variants, one'⟩ := (ahead s u').mp ⟨u, one, between⟩
    exact ⟨s', variants, u', one', other'⟩
  · rintro ⟨s', variants, u', one', other'⟩
    obtain ⟨u, one, between⟩ := (ahead s u').mpr ⟨s', variants, one'⟩
    obtain ⟨t, other, rest⟩ := (behind u t').mpr ⟨u', between, other'⟩
    exact ⟨t, ⟨u, one, other⟩, rest⟩

theorem Shadows.or (left : Shadows first first') (right : Shadows second second') :
    Shadows (fun s t => first s t ∨ second s t) (fun s t => first' s t ∨ second' s t) := by
  intro s t'
  simp only [or_and_right, exists_or, and_or_left, left s t', right s t']

theorem Shadows.steps (one : Shadows first first') : Shadows (Steps first) (Steps first') := by
  intro s t'
  constructor
  · rintro ⟨t, steps, rest⟩
    -- The variant comes to be from the far end: each step puts its own front before what is there.
    induction steps with
    | refl s => exact ⟨t', rest, .refl t'⟩
    | @cons s u t step _ ih =>
      obtain ⟨u', between, steps'⟩ := ih rest
      obtain ⟨s', variants, step'⟩ := (one s u').mp ⟨u, step, between⟩
      exact ⟨s', variants, .cons step' steps'⟩
  · rintro ⟨s', variants, steps'⟩
    induction steps' generalizing s with
    | refl => exact ⟨s, .refl s, variants⟩
    | @cons s' u' t' step' _ ih =>
      obtain ⟨u, step, between⟩ := (one s u').mpr ⟨s', variants, step'⟩
      obtain ⟨t, steps, rest⟩ := ih u between
      exact ⟨t, .cons step steps, rest⟩

/-! ### Expressions -/

theorem shadows_char {test : CharTest} (folds : test.Folds) :
    Shadows ((char test).Matches sameButCase) ((char test).Consumes) := by
  intro s t'
  constructor
  · rintro ⟨t, ⟨c, rfl, pass⟩, rest⟩
    obtain ⟨d, same, pass'⟩ := (folds c).mp pass
    exact ⟨d :: t', .cons same rest, d, rfl, pass'⟩
  · rintro ⟨_, variants, d, rfl, pass'⟩
    obtain ⟨c, t, same, rest, rfl⟩ := List.forall₂_cons_right_iff.mp variants
    exact ⟨t, ⟨c, rfl, (folds c).mpr ⟨d, same, pass'⟩⟩, rest⟩

/-- A line feed has no variants, so the end of a text is where the end of its variants is. -/
theorem shadows_finish : Shadows (finish.Matches sameButCase) finish.Consumes := by
  have newline : Caseless '\n' := caseless_of_lt (by decide)
  have ends : ∀ {s s'}, Variants s s' → ((s = [] ∨ s = ['\n']) ↔ (s' = [] ∨ s' = ['\n'])) := by
    intro s s' variants
    cases variants with
    | nil => simp
    | @cons c d rest rest' same more =>
      have feed : c = '\n' ↔ d = '\n' := by
        constructor
        · rintro rfl
          exact newline d same
        · rintro rfl
          exact newline c (sameButCase_comm c '\n' ▸ same)
      cases more <;> simp [feed]
  intro s t'
  constructor
  · rintro ⟨t, ⟨rfl, ended⟩, rest⟩
    exact ⟨t', rest, rfl, (ends rest).mp ended⟩
  · rintro ⟨s', variants, rfl, ended⟩
    exact ⟨s, ⟨rfl, (ends variants).mpr ended⟩, variants⟩

theorem shadows_matches {r : Regex} (folds : r.Folds) : Shadows (r.Matches sameButCase) r.Consumes := by
  induction r with
  | empty => exact .refl
  | char test => exact shadows_char folds
  | seq first second ihFirst ihSecond => exact (ihFirst folds.1).comp (ihSecond folds.2)
  | alt left right ihLeft ihRight => exact (ihLeft folds.1).or (ihRight folds.2)
  | group inner ih => exact ih folds
  | repeated times isLazy inner ih =>
    cases times with
    | zeroOrMore => exact (ih folds).steps
    | oneOrMore => exact (ih folds).comp (ih folds).steps
    | optional => exact Shadows.refl.or (ih folds)
  | notAhead inner _ => exact folds.elim
  | finish => exact shadows_finish

end Regex

theorem Pattern.test_sameButCase_iff {p : Pattern} (folds : p.body.Folds) {s : List Char} :
    p.test sameButCase s = true ↔ ∃ s', Variants s s' ∧ p.test (· == ·) s' = true := by
  have searched : ∀ same s, p.test same s = true ↔ ∃ t, p.body.Matches same s t :=
    fun same s => (Regex.run_eq_true_iff same p.body _ s).trans (exists_congr fun _ => and_iff_left rfl)
  simp only [searched]
  constructor
  · rintro ⟨t, matched⟩
    obtain ⟨s', variants, consumed⟩ := (Regex.shadows_matches folds s t).mp ⟨t, matched, .refl t⟩
    exact ⟨s', variants, t, consumed⟩
  · rintro ⟨s', variants, t', consumed⟩
    obtain ⟨t, matched, _⟩ := (Regex.shadows_matches folds s t').mpr ⟨s', variants, consumed⟩
    exact ⟨t, matched⟩

end CompilerAdapter
