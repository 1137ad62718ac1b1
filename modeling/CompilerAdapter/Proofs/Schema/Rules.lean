import CompilerAdapter.Proofs.Document.Fields
import CompilerAdapter.Proofs.Schema.Records

/-!
# Rules that are kept

What it means that a document does not break a rule, for each kind of rule, and what it means for a record without
further fields.
-/

namespace CompilerAdapter

namespace Rule

variable {α : Type} [Layered α] {path : List Scalar} {document : α} {misfit : Bool} {fields : Fields α} {s : String}

theorem allViolations_eq_nil {rules : List Rule} : allViolations path document misfit rules = [] ↔
    ∀ rule ∈ rules, rule.violations path document misfit = [] := by
  induction rules with
  | nil => simp [allViolations]
  | cons rule rules ih => rw [allViolations, List.append_eq_nil_iff, ih, List.forall_mem_cons]

/-! ### Objects -/

section Objects

variable (layer : Layered.layer document = .object fields)

include layer

theorem required_eq_nil {names : List String} : (required names).violations path document misfit = [] ↔
    ∀ name ∈ names, ∃ part, Fields.get? fields (.string name) = some part := by
  simp only [violations, layer, List.map_eq_nil_iff, List.filter_eq_nil_iff, Bool.not_eq_true', Fields.has,
    Bool.not_eq_false, Option.isSome_iff_exists]

theorem fields_eq_nil {known : List (String × Schema)} : (Rule.fields known).violations path document misfit = [] ↔
    ∀ field ∈ known, ∀ part, Fields.get? fields (.string field.1) = some part →
      field.2.violations (path ++ [.string field.1]) part = [] := by
  simp only [violations, layer, List.eq_nil_iff_forall_not_mem, mem_fieldViolations]
  constructor
  · intro free field member part given v broken
    exact free v ⟨field.1, field.2, part, member, given, broken⟩
  · intro follows v broken
    obtain ⟨name, schema, part, member, given, inside⟩ := broken
    exact follows (name, schema) member part given v inside

theorem closed_eq_nil {known : List String} : (closed known).violations path document misfit = [] ↔
    ∀ field ∈ fields, ∃ name ∈ known, field.1 = .string name := by
  have among (key : Scalar) : (known.any fun name => (Scalar.string name).sameKey key) = true ↔
      ∃ name ∈ known, key = .string name := by
    simp only [List.any_eq_true, Scalar.string_sameKey_iff]
  have silent : (closed known).violations path document misfit = [] ↔ Fields.others fields known = [] := by
    simp only [violations, layer]
    cases Fields.others fields known <;> simp
  rw [silent, Fields.others, List.filter_eq_nil_iff]
  refine forall₂_congr fun field _ => ?_
  rw [Bool.not_eq_true', Bool.not_eq_false, among]

theorem others_nil_eq_nil {schema : Schema} : (others [] schema).violations path document misfit = [] ↔
    ∀ field ∈ fields, schema.violations (Violation.fieldPath path field.1) field.2 = [] := by
  simp [violations, layer, Fields.others]

theorem keys_eq_nil {schema : Schema} : (keys schema).violations path document misfit = [] ↔
    ∀ field ∈ fields, schema.violations path (Layered.ofScalar field.1 : α) = [] := by
  simp only [violations, layer, List.flatMap_eq_nil_iff]

theorem nonEmpty_object_eq_nil : nonEmpty.violations path document misfit = [] ↔ fields ≠ [] := by
  simp only [violations, layer]
  cases fields <;> simp

end Objects

/-! ### Strings -/

theorem nonEmpty_string_eq_nil (layer : Layered.layer document = .scalar (.string s)) :
    nonEmpty.violations path document misfit = [] ↔ s ≠ "" := by
  simp only [violations, layer]
  split <;> simp_all

theorem matching_eq_nil {pattern : Pattern} : (matching pattern).violations path document misfit = [] ↔
    ∀ s, Layered.layer document = .scalar (.string s) → pattern.test (· == ·) s.toList = true := by
  simp only [violations]
  split
  · rename_i s layer
    simp [layer]
  · rename_i other
    exact iff_of_true rfl fun s layer => (other s layer).elim

theorem oneOf_eq_nil {choices : List String} : (oneOf choices).violations path document misfit = [] ↔
    ∃ s ∈ choices, Layered.layer document = .scalar (.string s) := by
  simp only [violations]
  split
  · rename_i s layer
    simp [layer]
  · rename_i other
    refine iff_of_false (by simp) ?_
    rintro ⟨s, _, layer⟩
    exact other s layer

end Rule

variable {α : Type} [Layered α] {path : List Scalar} {document : α}

theorem violations_of_none_eq_nil {rules : List Rule} : (Schema.of none rules).violations path document = [] ↔
    ∀ rule ∈ rules, rule.violations path document true = [] := by
  rw [Schema.violations, Rule.allViolations_eq_nil]

/-- An object that has certain fields and no others, each of which follows a schema of its own. -/
def Schema.closedRecord (known : List (String × Schema)) : Schema :=
  .of (some .object) [.required (known.map (·.1)), .fields known, .closed (known.map (·.1))]

theorem violations_closedRecord_eq_nil {known : List (String × Schema)} :
    (Schema.closedRecord known).violations path document = [] ↔ ∃ fields, Layered.layer document = .object fields ∧
      (∀ field ∈ known, ∃ part, Fields.get? fields (.string field.1) = some part ∧
        field.2.violations (path ++ [.string field.1]) part = []) ∧
      ∀ field ∈ fields, ∃ name ∈ known.map (·.1), field.1 = .string name := by
  rw [Schema.closedRecord, violations_of_eq_nil, admits_object, Rule.allViolations_eq_nil]
  simp only [List.forall_mem_cons, List.not_mem_nil, false_imp_iff, implies_true, and_true]
  constructor
  · intro free
    obtain ⟨⟨fields, layer⟩, required, each, closed⟩ := free
    rw [Rule.required_eq_nil layer, List.forall_mem_map] at required
    rw [Rule.fields_eq_nil layer] at each
    rw [Rule.closed_eq_nil layer] at closed
    refine ⟨fields, layer, fun field member => ?_, closed⟩
    obtain ⟨part, given⟩ := required field member
    exact ⟨part, given, each field member part given⟩
  · intro form
    obtain ⟨fields, layer, follows, closed⟩ := form
    rw [Rule.required_eq_nil layer, Rule.fields_eq_nil layer, Rule.closed_eq_nil layer, List.forall_mem_map]
    refine ⟨⟨fields, layer⟩, fun field member => ?_, fun field member part given => ?_, closed⟩
    · obtain ⟨part, given, _⟩ := follows field member
      exact ⟨part, given⟩
    · obtain ⟨other, found, free⟩ := follows field member
      obtain rfl : other = part := Option.some.inj (found.symm.trans given)
      exact free

end CompilerAdapter
