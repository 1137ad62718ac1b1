import CompilerAdapter.Path.Name

/-!
# Slashes of either kind

Paths are compared once their backslashes are turned into slashes. What has no backslash is left as it is.
-/

namespace CompilerAdapter.Path

variable {path extension : String} {s t : List Char}

theorem forwardSlash_eq_slash {c : Char} : forwardSlash c = '/' ↔ c = '/' ∨ c = '\\' := by
  unfold forwardSlash
  split
  · rename_i back
    simp [back]
  · rename_i other
    simp [other]

theorem forwardSlash_eq_iff {c x : Char} (other : x ≠ '/' ∧ x ≠ '\\') : forwardSlash c = x ↔ c = x := by
  unfold forwardSlash
  split
  · rename_i back
    subst back
    exact iff_of_false (Ne.symm other.1) (Ne.symm other.2)
  · rfl

theorem isAlpha_forwardSlash (c : Char) : (forwardSlash c).isAlpha = c.isAlpha := by
  unfold forwardSlash
  split
  · rename_i back
    subst back
    decide
  · rfl

theorem no_backslash_forwardSlash (s : List Char) : '\\' ∉ s.map forwardSlash := by
  intro member
  obtain ⟨c, _, turned⟩ := List.mem_map.mp member
  unfold forwardSlash at turned
  split at turned
  · cases turned
  · rename_i other
    exact other turned

theorem map_forwardSlash_of_plain (plain : '\\' ∉ s) : s.map forwardSlash = s := by
  have kept : ∀ c ∈ s, forwardSlash c = c := by
    intro c member
    have other : c ≠ '\\' := fun back => plain (back ▸ member)
    exact if_neg other
  rw [List.map_congr_left kept, List.map_id']

theorem eq_of_map_forwardSlash (plain : '/' ∉ t) (h : s.map forwardSlash = t) : s = t := by
  have back : '\\' ∉ s := fun member => plain (h ▸ List.mem_map.mpr ⟨_, member, rfl⟩)
  rw [← h, map_forwardSlash_of_plain back]

/-! ### Names with slashes -/

theorem toList_normalizeSlashes (path : String) : (normalizeSlashes path).toList = path.toList.map forwardSlash :=
  String.toList_map

theorem normalizeSlashes_append (front back : String) :
    normalizeSlashes (front ++ back) = normalizeSlashes front ++ normalizeSlashes back := by
  rw [← String.toList_inj, toList_normalizeSlashes, String.toList_append, List.map_append, String.toList_append,
    toList_normalizeSlashes, toList_normalizeSlashes]

theorem normalizeSlashes_eq_empty : normalizeSlashes path = "" ↔ path = "" := by
  rw [← String.toList_inj, ← String.toList_inj, toList_normalizeSlashes, String.toList_empty, List.map_eq_nil_iff]

/-- A text without slashes of either kind. -/
def Slashless (text : String) : Prop := '/' ∉ text.toList ∧ '\\' ∉ text.toList

theorem normalizeSlashes_of_slashless (plain : Slashless extension) : normalizeSlashes extension = extension := by
  rw [← String.toList_inj, toList_normalizeSlashes, map_forwardSlash_of_plain plain.2]

/-- A text without slashes ends a path if it ends the path with forward slashes. -/
theorem normalizeSlashes_eq_append_iff {front : String} (plain : Slashless extension) :
    normalizeSlashes path = front ++ extension ↔ ∃ stem, path = stem ++ extension ∧ normalizeSlashes stem = front := by
  constructor
  · intro h
    rw [← String.toList_inj, toList_normalizeSlashes, String.toList_append, List.map_eq_append_iff] at h
    obtain ⟨s, t, whole, fronts, ends⟩ := h
    rw [eq_of_map_forwardSlash plain.1 ends] at whole
    refine ⟨String.ofList s, ?_, ?_⟩
    · rw [← String.toList_inj, String.toList_append, String.toList_ofList, whole]
    · rw [← String.toList_inj, toList_normalizeSlashes, String.toList_ofList, fronts]
  · rintro ⟨stem, rfl, rfl⟩
    rw [normalizeSlashes_append, normalizeSlashes_of_slashless plain]

end CompilerAdapter.Path
