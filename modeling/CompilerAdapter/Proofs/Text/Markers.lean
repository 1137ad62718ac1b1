import CompilerAdapter.Proofs.Text.Parts

/-!
# Marks in a text

A text is cut at the first place where a mark stands in it. What is in front of that place and what is behind it are
told by the whole text: `FoundFirst.append_inj`.
-/

namespace CompilerAdapter

variable {α : Type} {c : α} {tail front front' back rest rest' mark : List α}

/-- A mark that starts with a character it has only there does not reach across that character. -/
theorem infix_append_cons (only : c ∉ tail) (h : (c :: tail) <:+: front ++ c :: back) :
    (c :: tail) <:+: front ∨ (c :: tail) <:+: c :: back := by
  obtain ⟨before, behind, whole⟩ := h
  rw [List.append_assoc] at whole
  rcases List.append_eq_append_iff.mp whole with ⟨d, rfl, within⟩ | ⟨d, rfl, within⟩
  · rcases List.append_eq_append_iff.mp within with ⟨e, rfl, -⟩ | ⟨e, cut, goes⟩
    · exact .inl ⟨before, e, by simp⟩
    · cases e with
      | nil =>
        obtain rfl : _ = d := cut.trans (List.append_nil d)
        exact .inl ⟨before, [], by simp⟩
      | cons x e =>
        obtain ⟨rfl, rfl⟩ := List.cons.inj goes
        cases d with
        | nil => exact .inr ⟨[], behind, by rw [cut]; simp⟩
        | cons y d =>
          obtain ⟨-, rfl⟩ := List.cons.inj cut
          exact absurd (by simp) only
  · exact .inr ⟨d, behind, by rw [within, List.append_assoc]⟩

/-- Behind `front` a mark is found for the first time. -/
def FoundFirst (mark front : List α) : Prop := ¬ mark <:+: front ++ mark.dropLast

theorem foundFirst_singleton (plain : c ∉ front) : FoundFirst [c] front := by
  intro found
  have member : c ∈ front ++ [] := found.subset List.mem_cons_self
  rw [List.append_nil] at member
  exact plain member

theorem FoundFirst.eq_nil {d : List α} (first : FoundFirst mark front') (filled : mark ≠ [])
    (h : front' ++ mark = front ++ mark ++ d) : d = [] := by
  rcases List.eq_nil_or_concat d with empty | ⟨d, last, rfl⟩
  · exact empty
  · have shorter : front' ++ mark.dropLast = front ++ mark ++ d := by
      have dropped := congrArg List.dropLast h
      rwa [List.concat_eq_append, ← List.append_assoc, List.dropLast_concat, List.dropLast_append_of_ne_nil filled]
        at dropped
    exact absurd ⟨front, d, shorter.symm⟩ first

/-- What stands in front of the first mark and what stands behind it is told by the whole text. -/
theorem FoundFirst.append_inj (first : FoundFirst mark front) (first' : FoundFirst mark front') (filled : mark ≠ [])
    (h : front ++ mark ++ rest = front' ++ mark ++ rest') : front = front' ∧ rest = rest' := by
  rcases List.append_eq_append_iff.mp h with ⟨d, same, behind⟩ | ⟨d, same, behind⟩
  · obtain rfl := first'.eq_nil filled same
    rw [List.append_nil] at same
    exact ⟨(List.append_cancel_right same).symm, behind⟩
  · obtain rfl := first.eq_nil filled same
    rw [List.append_nil] at same
    exact ⟨List.append_cancel_right same, behind.symm⟩

theorem append_cons_inj_of_first (plain : c ∉ front) (plain' : c ∉ front')
    (h : front ++ c :: rest = front' ++ c :: rest') : front = front' ∧ rest = rest' :=
  (foundFirst_singleton plain).append_inj (foundFirst_singleton plain') (by simp) (by simpa using h)

theorem append_cons_inj_of_last (plain : c ∉ rest) (plain' : c ∉ rest')
    (h : front ++ c :: rest = front' ++ c :: rest') : front = front' ∧ rest = rest' := by
  have turned : rest.reverse ++ c :: front.reverse = rest'.reverse ++ c :: front'.reverse := by
    simpa using congrArg List.reverse h
  obtain ⟨same, same'⟩ := append_cons_inj_of_first (by simpa using plain) (by simpa using plain') turned
  exact ⟨List.reverse_inj.mp same', List.reverse_inj.mp same⟩

end CompilerAdapter
