import CompilerAdapter.Regex.Language

/-!
# What expressions consume

`Consumes` is `Matches` for characters that are compared as they are. A repeated test of a character consumes any
characters that pass it.
-/

namespace CompilerAdapter.Regex

/-- Whether an expression consumes the part of `s` in front of `t`, when upper and lower case are told apart. -/
abbrev Consumes (r : Regex) (s t : List Char) : Prop := r.Matches (· == ·) s t

/-- Whether a character passes a test when upper and lower case are told apart. -/
abbrev Passes (test : CharTest) (c : Char) : Prop := test.accepts (· == ·) c = true

variable {s t : List Char}

@[simp] theorem passes_only {c x : Char} : Passes (.only c) x ↔ x = c :=
  beq_iff_eq.trans eq_comm

@[simp] theorem passes_noneOf {chars : List Char} {x : Char} : Passes (.noneOf chars) x ↔ x ∉ chars := by
  simp only [Passes, CharTest.accepts, Bool.not_eq_true', List.any_eq_false, beq_iff_eq]
  exact ⟨fun different member => different x member rfl, fun absent y member same => absent (same ▸ member)⟩

@[simp] theorem passes_any {x : Char} : Passes .any x ↔ x ≠ '\n' := by
  simp [Passes, CharTest.accepts]

theorem consumes_only {c : Char} : (char (.only c)).Consumes s t ↔ s = c :: t := by
  constructor
  · intro found
    obtain ⟨x, rfl, pass⟩ := found
    rw [passes_only.mp pass]
  · rintro rfl
    exact ⟨c, rfl, passes_only.mpr rfl⟩

theorem consumes_literal {word : List Char} : (literal word).Consumes s t ↔ s = word ++ t := by
  induction word generalizing s with
  | nil => exact eq_comm
  | cons c rest ih =>
    constructor
    · intro found
      obtain ⟨u, first, later⟩ := found
      rw [consumes_only.mp first, ih.mp later]
      rfl
    · rintro rfl
      exact ⟨rest ++ t, consumes_only.mpr rfl, ih.mpr rfl⟩

/-- Steps that each consume a piece of one kind consume any pieces of it. -/
theorem steps_iff_pieces {α : Type} {step : List Char → List Char → Prop} {kind : α → Prop} {text : α → List Char}
    (one : ∀ s t, step s t ↔ ∃ a, kind a ∧ s = text a ++ t) :
    Steps step s t ↔ ∃ pieces : List α, (∀ a ∈ pieces, kind a) ∧ s = pieces.flatMap text ++ t := by
  constructor
  · intro steps
    induction steps with
    | refl => exact ⟨[], by simp, rfl⟩
    | cons first _ ih =>
      obtain ⟨a, good, rfl⟩ := (one _ _).mp first
      obtain ⟨pieces, all, rfl⟩ := ih
      exact ⟨a :: pieces, by simpa using ⟨good, all⟩, by simp⟩
  · intro found
    obtain ⟨pieces, all, rfl⟩ := found
    induction pieces with
    | nil => exact .refl t
    | cons a pieces ih =>
      rw [List.forall_mem_cons] at all
      rw [List.flatMap_cons, List.append_assoc]
      exact .cons ((one _ _).mpr ⟨a, all.1, rfl⟩) (ih all.2)

theorem steps_char {test : CharTest} :
    Steps ((char test).Consumes) s t ↔ ∃ u, s = u ++ t ∧ ∀ c ∈ u, Passes test c := by
  have one : ∀ s t, (char test).Consumes s t ↔ ∃ c, Passes test c ∧ s = [c] ++ t :=
    fun _ _ => exists_congr fun _ => and_comm
  simpa [and_comm] using steps_iff_pieces (s := s) (t := t) one

/-- As many characters as wanted, each of which passes a test. -/
theorem consumes_many {test : CharTest} {isLazy : Bool} :
    (repeated .zeroOrMore isLazy (char test)).Consumes s t ↔ ∃ u, s = u ++ t ∧ ∀ c ∈ u, Passes test c :=
  steps_char

/-- One or more characters, each of which passes a test. -/
theorem consumes_some {test : CharTest} {isLazy : Bool} :
    (repeated .oneOrMore isLazy (char test)).Consumes s t ↔ ∃ u, u ≠ [] ∧ s = u ++ t ∧ ∀ c ∈ u, Passes test c := by
  constructor
  · intro found
    obtain ⟨u, ⟨c, rfl, pass⟩, steps⟩ := found
    obtain ⟨v, rfl, all⟩ := steps_char.mp steps
    exact ⟨c :: v, by simp, rfl, by simpa using ⟨pass, all⟩⟩
  · intro found
    obtain ⟨u, filled, rfl, all⟩ := found
    cases u with
    | nil => exact absurd rfl filled
    | cons c rest =>
      rw [List.forall_mem_cons] at all
      exact ⟨rest ++ t, ⟨c, rfl, all.1⟩, steps_char.mpr ⟨rest, rfl, all.2⟩⟩

end CompilerAdapter.Regex
