import CompilerAdapter.Proofs.Document.Fields

/-!
# Fields that are given values

A field that is given a value keeps its place and loses what it held before. The other fields stay as they are.
-/

namespace CompilerAdapter.Fields

variable {α : Type} {fields : Fields α} {name other : String}

theorem get?_put_same (fields : Fields α) (name : String) (v : α) :
    (fields.put (.string name) v).get? (.string name) = some v := by
  induction fields with
  | nil => simp [put]
  | cons field fields ih =>
    obtain ⟨key, w⟩ := field
    by_cases same : key.sameKey (.string name) = true
    · simp [put, get?, same]
    · simp [put, get?, same, ih]

theorem put_put_same (fields : Fields α) (name : String) (v w : α) :
    (fields.put (.string name) v).put (.string name) w = fields.put (.string name) w := by
  induction fields with
  | nil => simp [put]
  | cons field fields ih =>
    obtain ⟨key, u⟩ := field
    by_cases same : key.sameKey (.string name) = true
    · simp [put, same]
    · simp [put, same, ih]

theorem get?_put_other (fields : Fields α) (different : name ≠ other) (v : α) :
    (fields.put (.string other) v).get? (.string name) = fields.get? (.string name) := by
  induction fields with
  | nil => simp [put, get?, Ne.symm different]
  | cons field fields ih =>
    obtain ⟨key, w⟩ := field
    by_cases same : key.sameKey (.string other) = true
    · obtain rfl := Scalar.sameKey_string_iff.mp same
      simp [put, Ne.symm different]
    · simp [put, get?, same, ih]

/-- Once a field is there, another one may be given its value before or after. -/
theorem put_comm_of_has (different : name ≠ other) (present : fields.has (.string name) = true) (v w : α) :
    (fields.put (.string other) w).put (.string name) v = (fields.put (.string name) v).put (.string other) w := by
  induction fields with
  | nil => cases present
  | cons field fields ih =>
    obtain ⟨key, u⟩ := field
    by_cases here : key.sameKey (.string name) = true
    · obtain rfl := Scalar.sameKey_string_iff.mp here
      simp [put, different]
    · have later : has fields (.string name) = true := by simpa [has, get?, here] using present
      by_cases there : key.sameKey (.string other) = true
      · obtain rfl := Scalar.sameKey_string_iff.mp there
        simp [put, Ne.symm different]
      · simp [put, here, there, ih later]

/-- Giving two fields values twice leaves the later ones. -/
theorem put_pair_again (different : name ≠ other) (v w v' w' : α) :
    (((fields.put (.string name) v).put (.string other) w).put (.string name) v').put (.string other) w' =
      (fields.put (.string name) v').put (.string other) w' := by
  have present : (fields.put (.string name) v).has (.string name) = true := by simp [has, get?_put_same]
  rw [put_comm_of_has different present, put_put_same, put_put_same]

theorem filter_put (keep : Scalar → Bool) (dropped : keep (.string name) = false) (v : α) :
    (fields.put (.string name) v).filter (fun field => keep field.1) = fields.filter fun field => keep field.1 := by
  induction fields with
  | nil => simp [put, dropped]
  | cons field fields ih =>
    obtain ⟨key, w⟩ := field
    by_cases same : key.sameKey (.string name) = true
    · obtain rfl := Scalar.sameKey_string_iff.mp same
      simp [put, dropped]
    · simp [put, same, List.filter_cons, ih]

end CompilerAdapter.Fields
