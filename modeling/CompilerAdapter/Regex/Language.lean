import CompilerAdapter.Regex.Basic

/-! # What expressions match

`Regex.Matches` says when an expression takes a text up to a rest. The search for a match finds one exactly if there is
one: `run_eq_true_iff`. -/
namespace CompilerAdapter

inductive Steps {α : Type} (step : α → α → Prop) : α → α → Prop where
  | refl (s : α) : Steps step s s
  | cons {s t u : α} : step s t → Steps step t u → Steps step s u

namespace Regex

/-- Whether an expression matches the part of `s` in front of the rest `t`. -/
def Matches (same : Char → Char → Bool) : Regex → List Char → List Char → Prop
  | .empty, s, t => t = s
  | .char test, s, t => ∃ c, s = c :: t ∧ test.accepts same c = true
  | .seq first second, s, t => ∃ u, first.Matches same s u ∧ second.Matches same u t
  | .alt left right, s, t => left.Matches same s t ∨ right.Matches same s t
  | .group inner, s, t => inner.Matches same s t
  | .repeated .zeroOrMore _ inner, s, t => Steps (inner.Matches same) s t
  | .repeated .oneOrMore _ inner, s, t => ∃ u, inner.Matches same s u ∧ Steps (inner.Matches same) u t
  | .repeated .optional _ inner, s, t => t = s ∨ inner.Matches same s t
  | .notAhead inner, s, t => t = s ∧ ∀ u, ¬ inner.Matches same s u
  | .finish, s, t => t = s ∧ (s = [] ∨ s = ['\n'])

/-! ### The rest is what follows a front part -/

theorem suffix_of_steps {step : List Char → List Char → Prop} (h : ∀ s t, step s t → t <:+ s) {s t : List Char}
    (steps : Steps step s t) : t <:+ s := by
  induction steps with
  | refl => exact List.suffix_refl _
  | cons first _ ih => exact ih.trans (h _ _ first)

theorem suffix_of_matches {same : Char → Char → Bool} (r : Regex) {s t : List Char} (h : r.Matches same s t) :
    t <:+ s := by
  induction r generalizing s t with
  | empty => exact h ▸ List.suffix_refl _
  | char test =>
    obtain ⟨c, rfl, _⟩ := h
    exact List.suffix_cons c t
  | seq first second ihFirst ihSecond =>
    obtain ⟨u, hFirst, hSecond⟩ := h
    exact (ihSecond hSecond).trans (ihFirst hFirst)
  | alt left right ihLeft ihRight => exact h.elim ihLeft ihRight
  | group inner ih => exact ih h
  | repeated times isLazy inner ih =>
    cases times with
    | zeroOrMore => exact suffix_of_steps (fun _ _ => ih) h
    | oneOrMore =>
      obtain ⟨u, hFirst, hMore⟩ := h
      exact (suffix_of_steps (fun _ _ => ih) hMore).trans (ih hFirst)
    | optional => exact h.elim (fun same => same ▸ List.suffix_refl _) ih
  | notAhead inner _ => exact h.1 ▸ List.suffix_refl _
  | finish => exact h.1 ▸ List.suffix_refl _

/-! ### The search -/

def Searches (body : (List Char → Bool) → List Char → Bool) (step : List Char → List Char → Prop) : Prop :=
  ∀ k s, body k s = true ↔ ∃ t, step s t ∧ k t = true

theorem repeatedly_searches {body : (List Char → Bool) → List Char → Bool} {step : List Char → List Char → Prop}
    (search : Searches body step) (suffix : ∀ s t, step s t → t <:+ s) (isLazy : Bool) :
    Searches (repeatedly body isLazy) (Steps step) := by
  intro k s
  induction hn : s.length using Nat.strongRecOn generalizing s with
  | _ n ih =>
  have again : body (fun t => if t.length < s.length then repeatedly body isLazy k t else false) s = true ↔
      ∃ t, step s t ∧ t.length < s.length ∧ ∃ u, Steps step t u ∧ k u = true := by
    rw [search]
    refine exists_congr fun t => and_congr_right fun _ => ?_
    by_cases shorter : t.length < s.length
    · simp [shorter, ih t.length (hn ▸ shorter) t rfl]
    · simp [shorter]
  have steps : (∃ u, Steps step s u ∧ k u = true) ↔
      k s = true ∨ ∃ t, step s t ∧ t.length < s.length ∧ ∃ u, Steps step t u ∧ k u = true := by
    constructor
    · rintro ⟨u, hu, hk⟩
      induction hu with
      | refl => exact .inl hk
      | @cons s t u first more ihSteps =>
        by_cases shorter : t.length < s.length
        · exact .inr ⟨t, first, shorter, u, more, hk⟩
        · have ends := suffix s t first
          obtain rfl := ends.eq_of_length_le (Nat.le_of_not_lt shorter)
          exact ihSteps hn again hk
    · rintro (hk | ⟨t, first, _, u, more, hk⟩)
      · exact ⟨s, .refl s, hk⟩
      · exact ⟨u, .cons first more, hk⟩
  rw [repeatedly, steps, ← again]
  cases isLazy <;> simp [Bool.or_eq_true, or_comm]

/-- The search finds a match with a rest that `k` accepts exactly if there is one. -/
theorem run_eq_true_iff (same : Char → Char → Bool) (r : Regex) (k : List Char → Bool) (s : List Char) :
    r.run same k s = true ↔ ∃ t, r.Matches same s t ∧ k t = true := by
  induction r generalizing k s with
  | empty => simp [run, Matches]
  | char test =>
    cases s with
    | nil => simp [run, Matches]
    | cons c rest => simp [run, Matches, and_assoc]
  | seq first second ihFirst ihSecond =>
    simp only [run, Matches, ihFirst, ihSecond]
    constructor
    · rintro ⟨u, hu, t, ht, hk⟩
      exact ⟨t, ⟨u, hu, ht⟩, hk⟩
    · rintro ⟨t, ⟨u, hu, ht⟩, hk⟩
      exact ⟨u, hu, t, ht, hk⟩
  | alt left right ihLeft ihRight => simp [run, Matches, ihLeft, ihRight, or_and_right, exists_or]
  | group inner ih => simp [run, Matches, ih]
  | repeated times isLazy inner ih =>
    have star := repeatedly_searches (fun k s => ih k s) (fun _ _ => suffix_of_matches inner) isLazy
    cases times with
    | zeroOrMore => exact star k s
    | oneOrMore =>
      simp only [run, Matches, ih]
      constructor
      · rintro ⟨u, hu, hk⟩
        obtain ⟨t, ht, hk⟩ := (star k u).1 hk
        exact ⟨t, ⟨u, hu, ht⟩, hk⟩
      · rintro ⟨t, ⟨u, hu, ht⟩, hk⟩
        exact ⟨u, hu, (star k u).2 ⟨t, ht, hk⟩⟩
    | optional =>
      simp only [run, Matches, or_and_right, exists_or, exists_eq_left]
      cases isLazy <;> simp [ih, or_comm]
  | notAhead inner ih =>
    have blocked : inner.run same (fun _ => true) s = false ↔ ∀ u, ¬ inner.Matches same s u := by
      rw [← Bool.not_eq_true, ih]
      simp
    simp [run, Matches, blocked, and_assoc]
  | finish => simp [run, Matches, and_assoc]

end Regex

end CompilerAdapter
