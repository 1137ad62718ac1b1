/-!
# Outcomes

What is known of a computation that may fail from the part of its outcome that can be compared.
-/

namespace CompilerAdapter

variable {ε α β : Type}

theorem eq_ok_of_toOption {result : Except ε α} {a : α} (found : result.toOption = some a) :
    result = .ok a := by
  cases result with
  | error _ => cases found
  | ok b => rw [Option.some.inj found]

theorem exists_ok_of_toOption_map {result : Except ε α} {f : α → β} {b : β} (found : result.toOption.map f = some b) :
    ∃ a, result = .ok a ∧ f a = b := by
  cases result with
  | error _ => cases found
  | ok a => exact ⟨a, rfl, Option.some.inj found⟩

/-- The error of a result that failed. -/
def error? {ε α : Type} : Except ε α → Option ε
  | .error e => some e
  | .ok _ => none

theorem eq_error_of_error? {result : Except ε α} {e : ε} (found : error? result = some e) :
    result = .error e := by
  cases result with
  | error _ => rw [Option.some.inj found]
  | ok _ => cases found

theorem bind_eq_ok {first : Except ε α} {next : α → Except ε β} {b : β} :
    first >>= next = .ok b ↔ ∃ a, first = .ok a ∧ next a = .ok b := by
  cases first with
  | error _ => exact iff_of_false nofun nofun
  | ok a =>
    show next a = .ok b ↔ _
    simp

theorem mapError_eq_ok {δ : Type} {f : ε → δ} {result : Except ε α} {a : α} :
    result.mapError f = .ok a ↔ result = .ok a := by
  cases result with
  | error _ => exact iff_of_false nofun nofun
  | ok b =>
    show Except.ok b = .ok a ↔ _
    rw [Except.ok.injEq, Except.ok.injEq]

theorem mapM_eq_ok {f : α → Except ε β} {g : α → β} {items : List α}
    (each : ∀ item ∈ items, f item = .ok (g item)) : items.mapM f = .ok (items.map g) := by
  induction items with
  | nil => rfl
  | cons item items ih =>
    rw [List.forall_mem_cons] at each
    rw [List.mapM_cons, each.1, ih each.2]
    rfl

end CompilerAdapter
