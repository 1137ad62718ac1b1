import CompilerAdapter.Schema.Check

/-!
# The violation that is reported

It is one of the violations that were found, and there is one as soon as any was found. Nothing keeps it from being
reported if all violations can be shown and compared.
-/

namespace CompilerAdapter

variable {violations : List Violation} {v : Violation}

namespace Violation

theorem bestFrom_mem (best : Violation) (rest : List Violation) : bestFrom best rest ∈ best :: rest := by
  induction rest generalizing best with
  | nil => exact List.mem_singleton.mpr rfl
  | cons new rest ih =>
    have later := ih (if new.precedes best then new else best)
    rw [List.mem_cons] at later ⊢
    rcases later with kept | behind
    · rw [bestFrom, List.foldl_cons, ← bestFrom, kept]
      split
      · exact .inr List.mem_cons_self
      · exact .inl rfl
    · exact .inr (List.mem_cons_of_mem _ behind)

theorem mem_of_best? (h : best? violations = some v) : v ∈ violations := by
  cases violations with
  | nil => cases h
  | cons first rest =>
    obtain rfl := Option.some.inj h
    exact bestFrom_mem first rest

theorem best?_eq_none : best? violations = none ↔ violations = [] := by
  cases violations with
  | nil => exact iff_of_true rfl rfl
  | cons first rest => exact iff_of_false nofun nofun

/-! ### Depth -/

theorem depth_le_of_precedes {new best : Violation} (h : new.precedes best = true) :
    new.path.length ≤ best.path.length := by
  unfold precedes at h
  split at h
  · omega
  · exact Nat.le_of_lt (of_decide_eq_true h)

theorem depth_le_of_not_precedes {new best : Violation} (h : new.precedes best = false) :
    best.path.length ≤ new.path.length := by
  unfold precedes at h
  split at h
  · omega
  · exact Nat.le_of_not_lt (of_decide_eq_false h)

theorem depth_bestFrom_le (best : Violation) (rest : List Violation) :
    ∀ v ∈ best :: rest, (bestFrom best rest).path.length ≤ v.path.length := by
  induction rest generalizing best with
  | nil =>
    intro v member
    rw [List.mem_singleton.mp member]
    exact Nat.le_refl _
  | cons new rest ih =>
    -- The next best is no deeper than either of the two that were compared.
    have next : ∀ v ∈ [best, new], (if new.precedes best then new else best).path.length ≤ v.path.length := by
      cases compared : new.precedes best with
      | true => simp [depth_le_of_precedes compared]
      | false => simp [depth_le_of_not_precedes compared]
    have later := ih (if new.precedes best then new else best)
    have found := later _ List.mem_cons_self
    intro v member
    rw [bestFrom, List.foldl_cons, ← bestFrom]
    rcases List.mem_cons.mp member with rfl | behind
    · exact Nat.le_trans found (next v (by simp))
    · rcases List.mem_cons.mp behind with rfl | behind
      · exact Nat.le_trans found (next v (by simp))
      · exact later v (List.mem_cons_of_mem _ behind)

/-- No violation is less deep than the one that is reported. -/
theorem depth_le_of_best? (h : best? violations = some v) : ∀ w ∈ violations, v.path.length ≤ w.path.length := by
  cases violations with
  | nil => cases h
  | cons first rest =>
    obtain rfl := Option.some.inj h
    exact depth_bestFrom_le first rest

/-! ### Obstacles -/

theorem obstacleFrom?_eq_none {best : Violation} {rest : List Violation}
    (shown : ∀ v ∈ rest, v.cause.isWritable = true)
    (ordered : ∀ v ∈ best :: rest, ∀ w ∈ best :: rest, clash? v w = none) : obstacleFrom? best rest = none := by
  induction rest generalizing best with
  | nil => rfl
  | cons new rest ih =>
    rw [List.forall_mem_cons] at shown
    have taken : new.obstacleTo? best = none := by
      have free := ordered new (by simp) best List.mem_cons_self
      rw [obstacleTo?, if_pos shown.1, free]
      rfl
    have kept : ∀ next, next = new ∨ next = best → ∀ v ∈ next :: rest, v ∈ best :: new :: rest := by
      intro next either v member
      rcases List.mem_cons.mp member with rfl | behind
      · rcases either with rfl | rfl <;> simp
      · simp [behind]
    have either :
        (if new.precedes best then new else best) = new ∨ (if new.precedes best then new else best) = best := by
      split <;> simp
    have later := ih shown.2 fun v member w member' => ordered v (kept _ either v member) w (kept _ either w member')
    rw [obstacleFrom?, taken, later]
    rfl

theorem obstacle?_eq_none (shown : ∀ v ∈ violations, v.cause.isWritable = true)
    (ordered : ∀ v ∈ violations, ∀ w ∈ violations, clash? v w = none) : obstacle? violations = none := by
  cases violations with
  | nil => rfl
  | cons first rest =>
    rw [List.forall_mem_cons] at shown
    rw [obstacle?, if_pos shown.1]
    exact obstacleFrom?_eq_none shown.2 ordered

end Violation

end CompilerAdapter
