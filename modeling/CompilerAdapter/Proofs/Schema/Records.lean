import CompilerAdapter.Schema.Check

/-!
# Violations by the form of a schema

What breaks the schema of a record, of a list, of a counted number or of a text. A document follows such a schema
exactly if it has that form.
-/

namespace CompilerAdapter

variable {α : Type}

/-! ### Kinds -/

theorem admits_object {layer : Layer α} : Kind.object.admits layer = true ↔ ∃ fields, layer = .object fields := by
  cases layer <;> simp [Kind.admits]

theorem admits_list {layer : Layer α} : Kind.list.admits layer = true ↔ ∃ items, layer = .list items := by
  cases layer <;> simp [Kind.admits]

theorem admits_string {layer : Layer α} : Kind.string.admits layer = true ↔ ∃ s, layer = .scalar (.string s) := by
  cases layer with
  | scalar s => cases s <;> simp [Kind.admits]
  | _ => simp [Kind.admits]

theorem admits_integer {layer : Layer α} :
    Kind.integer.admits layer = true ↔ ∃ n, layer = .scalar (.number n) ∧ n.isIntegral = true := by
  cases layer with
  | scalar s => cases s <;> simp [Kind.admits]
  | _ => simp [Kind.admits]

/-! ### Layers of values -/

theorem layer_eq_scalar_iff {document : Value} {s : Scalar} :
    Layered.layer document = .scalar s ↔ document = .scalar s := by
  cases document <;> simp [Layered.layer]

theorem layer_eq_list_iff {document : Value} {items : List Value} :
    Layered.layer document = .list items ↔ document = .list items := by
  cases document <;> simp [Layered.layer]

theorem layer_eq_object_iff {document : Value} {fields : Fields} :
    Layered.layer document = .object fields ↔ document = .object fields := by
  cases document <;> simp [Layered.layer]

/-! ### Forms of schemas -/

/-- An object that has certain fields, each of which follows a schema of its own. -/
def Schema.record (known : List (String × Schema)) : Schema :=
  .of (some .object) [.required (known.map (·.1)), .fields known]

def Schema.listOf (schema : Schema) : Schema := .of (some .list) [.items schema]

/-- A whole number that is not less than a bound. -/
def Schema.count (minimum : Int) : Schema := .of (some .integer) [.atLeast minimum]

def Schema.text : Schema := .of (some .string) []

/-- The names of known fields that an object does not have. -/
def Fields.absent (fields : Fields α) (known : List (String × Schema)) : List String :=
  (known.map (·.1)).filter fun name => !Fields.has fields (.string name)

variable [Layered α] {path : List Scalar} {document : α} {v : Violation}

def Violation.ofKind (path : List Scalar) (document : α) (kind : Kind) : Violation :=
  ⟨path, .wrongKind (Layered.value document) kind, true⟩

theorem mem_violations_of {kind : Kind} {rules : List Rule} : v ∈ (Schema.of (some kind) rules).violations path document ↔
    (kind.admits (Layered.layer document) = false ∧ v = .ofKind path document kind) ∨
      v ∈ Rule.allViolations path document (!kind.admits (Layered.layer document)) rules := by
  unfold Schema.violations
  dsimp only
  rw [List.mem_append]
  cases kind.admits (Layered.layer document) <;> simp [Violation.ofKind]

theorem violations_of_eq_nil {kind : Kind} {rules : List Rule} :
    (Schema.of (some kind) rules).violations path document = [] ↔
      kind.admits (Layered.layer document) = true ∧ Rule.allViolations path document false rules = [] := by
  unfold Schema.violations
  dsimp only
  cases kind.admits (Layered.layer document) <;> simp

/-! ### Records -/

theorem mem_fieldViolations {fields : Fields α} {known : List (String × Schema)} :
    v ∈ Rule.fieldViolations path fields known ↔ ∃ name schema part, (name, schema) ∈ known ∧
      fields.get? (.string name) = some part ∧ v ∈ schema.violations (path ++ [.string name]) part := by
  induction known with
  | nil => simp [Rule.fieldViolations]
  | cons field known ih =>
    obtain ⟨name, schema⟩ := field
    rw [Rule.fieldViolations, List.mem_append, ih]
    constructor
    · intro found
      rcases found with here | ⟨other, later, part, member, given, inside⟩
      · split at here
        · rename_i part given
          exact ⟨name, schema, part, List.mem_cons_self, given, here⟩
        · cases here
      · exact ⟨other, later, part, List.mem_cons_of_mem _ member, given, inside⟩
    · intro found
      obtain ⟨other, later, part, member, given, inside⟩ := found
      rcases List.mem_cons.mp member with same | behind
      · obtain ⟨rfl, rfl⟩ := Prod.mk.inj same
        left
        rw [given]
        exact inside
      · exact .inr ⟨other, later, part, behind, given, inside⟩

theorem violations_of_not_object (other : ∀ fields, Layered.layer document ≠ .object fields) (misfit : Bool)
    (names : List String) (known : List (String × Schema)) :
    Rule.allViolations path document misfit [.required names, .fields known] = [] := by
  have required : Rule.violations path document misfit (.required names) = [] := by
    unfold Rule.violations
    split
    · rename_i fields layer
      exact absurd layer (other fields)
    · rfl
  have below : Rule.violations path document misfit (.fields known) = [] := by
    unfold Rule.violations
    split
    · rename_i fields layer
      exact absurd layer (other fields)
    · rfl
  rw [Rule.allViolations, Rule.allViolations, Rule.allViolations, required, below]
  rfl

/-- A record is broken by a document that is no object, or by missing fields, or below one of its fields. -/
theorem mem_violations_record {known : List (String × Schema)} :
    v ∈ (Schema.record known).violations path document ↔
      ((∀ fields, Layered.layer document ≠ .object fields) ∧ v = .ofKind path document .object) ∨
      ∃ fields, Layered.layer document = .object fields ∧
        ((∃ name ∈ Fields.absent fields known, v = ⟨path, .missing name (Fields.absent fields known), false⟩) ∨
          ∃ name schema part, (name, schema) ∈ known ∧ Fields.get? fields (.string name) = some part ∧
            v ∈ schema.violations (path ++ [.string name]) part) := by
  rw [Schema.record, mem_violations_of]
  by_cases fits : ∃ fields, Layered.layer document = .object fields
  · obtain ⟨fields, layer⟩ := fits
    have admitted : Kind.object.admits (Layer.object fields) = true := rfl
    simp only [layer, admitted, Rule.allViolations, Rule.violations, List.append_nil, List.mem_append, List.mem_map,
      mem_fieldViolations, Fields.absent, Bool.not_true, Bool.true_eq_false, false_and, false_or, ne_eq,
      Layer.object.injEq, exists_eq_left', forall_eq', eq_comm (b := v)]
  · have refused : Kind.object.admits (Layered.layer document) = false := by
      rw [← Bool.not_eq_true, admits_object]
      exact fits
    rw [not_exists] at fits
    rw [refused, Bool.not_false, violations_of_not_object fits]
    simp [fits]

theorem violations_record_eq_nil {known : List (String × Schema)} :
    (Schema.record known).violations path document = [] ↔ ∃ fields, Layered.layer document = .object fields ∧
      ∀ name schema, (name, schema) ∈ known → ∃ part, Fields.get? fields (.string name) = some part ∧
        schema.violations (path ++ [.string name]) part = [] := by
  rw [Schema.record, violations_of_eq_nil, admits_object]
  have rules : ∀ fields, Layered.layer document = .object fields →
      (Rule.allViolations path document false [.required (known.map (·.1)), .fields known] = [] ↔
        Fields.absent fields known = [] ∧ Rule.fieldViolations path fields known = []) := by
    intro fields layer
    simp only [Rule.allViolations, Rule.violations, layer, List.append_nil, List.append_eq_nil_iff, List.map_eq_nil_iff,
      Fields.absent]
  constructor
  · intro free
    obtain ⟨⟨fields, layer⟩, silent⟩ := free
    obtain ⟨complete, below⟩ := (rules fields layer).mp silent
    refine ⟨fields, layer, fun name schema member => ?_⟩
    have present := List.filter_eq_nil_iff.mp complete name (List.mem_map_of_mem (f := (·.1)) member)
    obtain ⟨part, given⟩ : ∃ part, Fields.get? fields (.string name) = some part := by
      apply Option.isSome_iff_exists.mp
      simpa [Fields.has, Option.isSome_iff_ne_none] using present
    refine ⟨part, given, List.eq_nil_iff_forall_not_mem.mpr fun v inside => ?_⟩
    have broken := mem_fieldViolations.mpr ⟨name, schema, part, member, given, inside⟩
    rw [below] at broken
    cases broken
  · intro form
    obtain ⟨fields, layer, follows⟩ := form
    refine ⟨⟨fields, layer⟩, (rules fields layer).mpr ⟨List.filter_eq_nil_iff.mpr fun name listed => ?_, ?_⟩⟩
    · obtain ⟨⟨_, schema⟩, member, rfl⟩ := List.mem_map.mp listed
      obtain ⟨part, given, _⟩ := follows _ schema member
      simp [Fields.has, given]
    · refine List.eq_nil_iff_forall_not_mem.mpr fun v broken => ?_
      obtain ⟨name, schema, part, member, given, inside⟩ := mem_fieldViolations.mp broken
      obtain ⟨part', given', free⟩ := follows name schema member
      obtain rfl := Option.some.inj (given.symm.trans given')
      rw [free] at inside
      cases inside

/-! ### Lists and simple values -/

theorem mem_violations_listOf {schema : Schema} : v ∈ (Schema.listOf schema).violations path document ↔
    ((∀ items, Layered.layer document ≠ .list items) ∧ v = .ofKind path document .list) ∨
    ∃ items, ∃ index : Nat, ∃ item, Layered.layer document = .list items ∧ items[index]? = some item ∧
      v ∈ schema.violations (path ++ [.number (.int index)]) item := by
  rw [Schema.listOf, mem_violations_of, ← Bool.not_eq_true, admits_list, not_exists]
  refine or_congr Iff.rfl ?_
  simp only [Rule.allViolations, List.append_nil, Rule.violations]
  constructor
  · intro found
    split at found
    · rename_i items layer
      obtain ⟨⟨item, index⟩, placed, inside⟩ := List.mem_flatMap.mp found
      exact ⟨items, index, item, layer, List.mem_zipIdx_iff_getElem?.mp placed, inside⟩
    · cases found
  · intro found
    obtain ⟨items, index, item, layer, placed, inside⟩ := found
    rw [layer]
    exact List.mem_flatMap.mpr ⟨(item, index), List.mem_zipIdx_iff_getElem?.mpr placed, inside⟩

theorem violations_listOf_eq_nil {schema : Schema} : (Schema.listOf schema).violations path document = [] ↔
    ∃ items, Layered.layer document = .list items ∧ ∀ (index : Nat) (item : α), items[index]? = some item →
      schema.violations (path ++ [.number (.int index)]) item = [] := by
  rw [Schema.listOf, violations_of_eq_nil, admits_list, exists_and_right.symm]
  refine exists_congr fun items => and_congr_right fun layer => ?_
  simp only [Rule.allViolations, List.append_nil, Rule.violations, layer, List.flatMap_eq_nil_iff]
  constructor
  · intro free index item placed
    exact free (item, index) (List.mem_zipIdx_iff_getElem?.mpr placed)
  · intro follows place member
    exact follows place.2 place.1 (List.mem_zipIdx_iff_getElem?.mp member)

/-- A number that is not whole may be too small as well. -/
theorem mem_violations_count {minimum : Int} : v ∈ (Schema.count minimum).violations path document ↔
    ((¬ ∃ n, Layered.layer document = .scalar (.number n) ∧ n.isIntegral = true) ∧ v = .ofKind path document .integer) ∨
    ∃ n, Layered.layer document = .scalar (.number n) ∧ n.less (.int minimum) = true ∧
      v = ⟨path, .below n minimum, !n.isIntegral⟩ := by
  rw [Schema.count, mem_violations_of, ← Bool.not_eq_true, admits_integer]
  refine or_congr Iff.rfl ?_
  simp only [Rule.allViolations, List.append_nil, Rule.violations]
  constructor
  · intro found
    split at found
    · rename_i n layer
      split at found
      · rename_i below
        refine ⟨n, layer, below, ?_⟩
        rw [List.mem_singleton.mp found, layer]
        rfl
      · cases found
    · cases found
  · intro found
    obtain ⟨n, layer, below, rfl⟩ := found
    rw [layer]
    simp [below, Kind.admits]

theorem violations_count_eq_nil {minimum : Int} : (Schema.count minimum).violations path document = [] ↔
    ∃ n, Layered.layer document = .scalar (.number n) ∧ n.isIntegral = true ∧ n.less (.int minimum) = false := by
  rw [Schema.count, violations_of_eq_nil, admits_integer, exists_and_right.symm]
  refine exists_congr fun n => ?_
  rw [and_assoc]
  refine and_congr_right fun layer => and_congr_right fun _ => ?_
  simp [Rule.allViolations, Rule.violations, layer]

theorem mem_violations_text : v ∈ Schema.text.violations path document ↔
    (∀ s, Layered.layer document ≠ .scalar (.string s)) ∧ v = .ofKind path document .string := by
  rw [Schema.text, mem_violations_of, ← Bool.not_eq_true, admits_string, not_exists]
  simp [Rule.allViolations]

theorem violations_text_eq_nil : Schema.text.violations path document = [] ↔
    ∃ s, Layered.layer document = .scalar (.string s) := by
  rw [Schema.text, violations_of_eq_nil, admits_string]
  exact and_iff_left rfl

end CompilerAdapter
