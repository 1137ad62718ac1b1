import CompilerAdapter.Document.Basic

/-!
# Fields with names

Fields are looked up by name, and a field with a new name goes to the end.
-/

namespace CompilerAdapter

@[simp] theorem Scalar.sameKey_string {s t : String} : (Scalar.string s).sameKey (.string t) = decide (s = t) := by
  rw [Bool.eq_iff_iff]
  simp [sameKey, asNumber?]

theorem Scalar.sameKey_string_iff {key : Scalar} {name : String} :
    key.sameKey (.string name) = true ↔ key = .string name := by
  cases key <;> simp [sameKey, asNumber?]

theorem Scalar.string_sameKey_iff {key : Scalar} {name : String} :
    (string name).sameKey key = true ↔ key = .string name := by
  cases key with
  | string s => simp [eq_comm]
  | _ => simp [sameKey, asNumber?]

theorem exists_fields_of_field? {v part : Value} {name : String} (given : v.field? name = some part) :
    ∃ fields, v = .object fields := by
  cases v with
  | object fields => exact ⟨fields, rfl⟩
  | _ => cases given

namespace Fields

variable {α : Type}

/-- All fields have strings for names. -/
def IsNamed (fields : Fields α) : Prop := ∀ field ∈ fields, ∃ name, field.1 = .string name

@[simp] theorem get?_cons_string {fields : Fields α} {s t : String} {v : α} :
    get? ((.string s, v) :: fields) (.string t) = if s = t then some v else get? fields (.string t) := by
  simp [get?]

theorem get?_map {β : Type} (f : α → β) {fields : Fields α} {key : Scalar} :
    get? (fields.map fun field => (field.1, f field.2)) key = (fields.get? key).map f := by
  induction fields with
  | nil => rfl
  | cons field fields ih =>
    obtain ⟨other, part⟩ := field
    rw [List.map_cons]
    by_cases same : other.sameKey key = true
    · simp [get?, same]
    · simp [get?, same, ih]

theorem mem_of_get? {fields : Fields α} {name : String} {part : α} (found : fields.get? (.string name) = some part) :
    (.string name, part) ∈ fields := by
  induction fields with
  | nil => cases found
  | cons field fields ih =>
    obtain ⟨key, first⟩ := field
    unfold get? at found
    split at found
    · rename_i same
      rw [Scalar.sameKey_string_iff.mp same, Option.some.inj found]
      exact List.mem_cons_self
    · exact List.mem_cons_of_mem _ (ih found)

theorem put_of_new {fields : Fields α} {key : Scalar} (fresh : ∀ field ∈ fields, field.1.sameKey key = false) (v : α) :
    fields.put key v = fields ++ [(key, v)] := by
  induction fields with
  | nil => rfl
  | cons field fields ih =>
    rw [List.forall_mem_cons] at fresh
    have later := ih fresh.2
    simp [put, fresh.1, later]

/-- A name that no field has yet. -/
theorem put_string_of_new {fields : Fields α} {name : String} (named : fields.IsNamed)
    (fresh : .string name ∉ fields.map Prod.fst) (v : α) :
    fields.put (.string name) v = fields ++ [(.string name, v)] := by
  refine put_of_new (fun field member => ?_) v
  obtain ⟨other, same⟩ := named field member
  have different : other ≠ name := by
    intro equal
    exact fresh (List.mem_map.mpr ⟨field, member, by rw [same, equal]⟩)
  rw [same, Scalar.sameKey_string]
  exact decide_eq_false different

theorem put_of_distinct {before after : Fields α} {name : String} {v : α}
    (named : (before ++ (.string name, v) :: after).IsNamed)
    (distinct : ((before ++ (.string name, v) :: after).map Prod.fst).Nodup) :
    before.put (.string name) v = before ++ [(.string name, v)] := by
  have namedBefore : before.IsNamed := fun field member => named field (List.mem_append_left _ member)
  rw [List.map_append, List.nodup_append] at distinct
  refine put_string_of_new namedBefore (fun member => ?_) v
  exact distinct.2.2 _ member _ List.mem_cons_self rfl

/-! ### Fields with distinct names -/

theorem mem_put {fields : Fields α} {key : Scalar} {v : α} {field : Scalar × α} (member : field ∈ fields.put key v) :
    field ∈ fields ∨ field.2 = v := by
  induction fields with
  | nil =>
    right
    rw [List.mem_singleton.mp member]
  | cons first fields ih =>
    unfold put at member
    split at member
    · rcases List.mem_cons.mp member with rfl | behind
      · exact .inr rfl
      · exact .inl (List.mem_cons_of_mem _ behind)
    · rcases List.mem_cons.mp member with rfl | behind
      · exact .inl List.mem_cons_self
      · exact (ih behind).imp (List.mem_cons_of_mem _) id

theorem map_fst_put {fields : Fields α} (named : fields.IsNamed) (name : String) (v : α) :
    (fields.put (.string name) v).map Prod.fst =
      if .string name ∈ fields.map Prod.fst then fields.map Prod.fst else fields.map Prod.fst ++ [.string name] := by
  induction fields with
  | nil => rfl
  | cons field fields ih =>
    obtain ⟨key, other⟩ := field
    obtain ⟨first, rfl⟩ : ∃ first, key = .string first := named _ List.mem_cons_self
    have later := ih fun field member => named field (List.mem_cons_of_mem _ member)
    by_cases same : first = name
    · subst same
      simp [put]
    · have other : name ≠ first := Ne.symm same
      by_cases behind : .string name ∈ fields.map Prod.fst
      · rw [if_pos behind] at later
        rw [List.map_cons, if_pos (List.mem_cons_of_mem _ behind)]
        simp [put, same, later]
      · rw [if_neg behind] at later
        have fresh : .string name ∉ .string first :: fields.map Prod.fst := by
          rw [List.mem_cons, not_or]
          exact ⟨by simpa using other, behind⟩
        rw [List.map_cons, if_neg fresh]
        simp [put, same, later]

theorem isNamed_iff {fields : Fields α} : fields.IsNamed ↔ ∀ key ∈ fields.map Prod.fst, ∃ name, key = .string name := by
  simp [IsNamed]

theorem IsNamed.put {fields : Fields α} (named : fields.IsNamed) (name : String) (v : α) :
    IsNamed (fields.put (.string name) v) := by
  rw [isNamed_iff, map_fst_put named]
  rw [isNamed_iff] at named
  split
  · exact named
  · simpa [or_imp, forall_and] using named

theorem nodup_put {fields : Fields α} (named : fields.IsNamed) (distinct : (fields.map Prod.fst).Nodup) (name : String)
    (v : α) : ((fields.put (.string name) v).map Prod.fst).Nodup := by
  rw [map_fst_put named]
  split
  · exact distinct
  · rename_i fresh
    rw [List.nodup_append]
    refine ⟨distinct, by simp, fun key member other same => ?_⟩
    rw [List.mem_singleton.mp same]
    rintro rfl
    exact fresh member

theorem get?_eq_some_iff {fields : Fields α} (named : fields.IsNamed) (distinct : (fields.map Prod.fst).Nodup)
    {name : String} {v : α} : fields.get? (.string name) = some v ↔ (.string name, v) ∈ fields := by
  induction fields with
  | nil => exact iff_of_false nofun List.not_mem_nil
  | cons field fields ih =>
    obtain ⟨key, first⟩ := field
    obtain ⟨other, rfl⟩ : ∃ other, key = .string other := named _ List.mem_cons_self
    rw [List.map_cons, List.nodup_cons] at distinct
    have later := ih (fun field member => named field (List.mem_cons_of_mem _ member)) distinct.2
    rw [get?_cons_string, List.mem_cons, Prod.mk.injEq, Scalar.string.injEq, ← later]
    by_cases same : other = name
    · subst same
      have absent : get? fields (.string other) ≠ some v :=
        fun found => distinct.1 (List.mem_map.mpr ⟨_, later.mp found, rfl⟩)
      rw [if_pos rfl, or_iff_left absent, Option.some.injEq, eq_comm]
      simp
    · have different : name ≠ other := Ne.symm same
      simp [same, different]

end Fields

end CompilerAdapter
