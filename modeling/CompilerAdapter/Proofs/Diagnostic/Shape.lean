import CompilerAdapter.Diagnostic.Reading
import CompilerAdapter.Proofs.Document.Fields
import CompilerAdapter.Proofs.Number.Value
import CompilerAdapter.Proofs.Schema.Records

/-!
# The shape of diagnostics and reports

Which documents have the fields of a diagnostic or of a report, told without a schema. They are the ones that follow the
schema: `Report.violations_eq_nil`.
-/

namespace CompilerAdapter

/-- An object with counts for its code and its place, and with strings for its file name and its message. -/
structure Diagnostic.HasShape (v : Value) : Prop where
  counts : ∀ name ∈ ["code", "line", "column"], ∃ n, v.field? name = some (.number n) ∧ n.IsCount
  strings : ∀ name ∈ ["fileName", "message"], ∃ s, v.field? name = some (.string s)

/-- An object with two lists of diagnostics. -/
def Report.HasShape (v : Value) : Prop :=
  ∀ name ∈ ["syntacticErrors", "semanticErrors"],
    ∃ items, v.field? name = some (.list items) ∧ ∀ item ∈ items, Diagnostic.HasShape item

section Fields

variable {path : List Scalar} {v : Value} {name : String}

def FieldFollows (schema : Schema) (path : List Scalar) (v : Value) (name : String) : Prop :=
  ∃ part, v.field? name = some part ∧ schema.violations (path ++ [.string name]) part = []

theorem record_eq_nil_iff {known : List (String × Schema)} (filled : known ≠ []) :
    (Schema.record known).violations path v = [] ↔ ∀ field ∈ known, FieldFollows field.2 path v field.1 := by
  rw [violations_record_eq_nil]
  constructor
  · intro form field member
    obtain ⟨fields, layer, follows⟩ := form
    obtain rfl := layer_eq_object_iff.mp layer
    exact follows field.1 field.2 member
  · intro follows
    obtain ⟨field, member⟩ := List.exists_mem_of_ne_nil known filled
    obtain ⟨_, given, _⟩ := follows field member
    obtain ⟨fields, rfl⟩ := exists_fields_of_field? given
    exact ⟨fields, rfl, fun name schema listed => follows (name, schema) listed⟩

theorem fieldFollows_count :
    FieldFollows (.count 1) path v name ↔ ∃ n, v.field? name = some (.number n) ∧ n.IsCount := by
  constructor
  · intro follows
    obtain ⟨part, given, free⟩ := follows
    obtain ⟨n, layer, checked⟩ := violations_count_eq_nil.mp free
    obtain rfl := layer_eq_scalar_iff.mp layer
    exact ⟨n, given, n.isCount_iff.mpr checked⟩
  · intro shape
    obtain ⟨n, given, count⟩ := shape
    exact ⟨.number n, given, violations_count_eq_nil.mpr ⟨n, rfl, n.isCount_iff.mp count⟩⟩

theorem fieldFollows_text : FieldFollows .text path v name ↔ ∃ s, v.field? name = some (.string s) := by
  constructor
  · intro follows
    obtain ⟨part, given, free⟩ := follows
    obtain ⟨s, layer⟩ := violations_text_eq_nil.mp free
    obtain rfl := layer_eq_scalar_iff.mp layer
    exact ⟨s, given⟩
  · intro shape
    obtain ⟨s, given⟩ := shape
    exact ⟨.string s, given, violations_text_eq_nil.mpr ⟨s, rfl⟩⟩

theorem fieldFollows_listOf {schema : Schema} {Shape : Value → Prop}
    (judged : ∀ path item, schema.violations path item = [] ↔ Shape item) : FieldFollows (.listOf schema) path v name ↔
      ∃ items, v.field? name = some (.list items) ∧ ∀ item ∈ items, Shape item := by
  constructor
  · intro follows
    obtain ⟨part, given, free⟩ := follows
    obtain ⟨items, layer, each⟩ := violations_listOf_eq_nil.mp free
    obtain rfl := layer_eq_list_iff.mp layer
    refine ⟨items, given, fun item member => ?_⟩
    obtain ⟨index, placed⟩ := List.mem_iff_getElem?.mp member
    exact (judged _ item).mp (each index item placed)
  · intro shape
    obtain ⟨items, given, each⟩ := shape
    refine ⟨.list items, given, violations_listOf_eq_nil.mpr ⟨items, rfl, fun index item placed => ?_⟩⟩
    exact (judged _ item).mpr (each item (List.mem_of_getElem? placed))

end Fields

namespace Diagnostic

theorem schema_eq_record : schema = .record
    [("code", .count 1), ("fileName", .text), ("message", .text), ("line", .count 1), ("column", .count 1)] :=
  rfl

theorem violations_eq_nil (path : List Scalar) (v : Value) : schema.violations path v = [] ↔ HasShape v := by
  rw [schema_eq_record, record_eq_nil_iff (by simp)]
  simp only [List.forall_mem_cons, fieldFollows_count, fieldFollows_text]
  constructor
  · intro follows
    obtain ⟨code, fileName, message, line, column, _⟩ := follows
    exact ⟨by simp [code, line, column], by simp [fileName, message]⟩
  · intro shape
    obtain ⟨counts, strings⟩ := shape
    simp only [List.forall_mem_cons] at counts strings
    obtain ⟨code, line, column, _⟩ := counts
    obtain ⟨fileName, message, _⟩ := strings
    exact ⟨code, fileName, message, line, column, by simp⟩

end Diagnostic

namespace Report

theorem schema_eq_record : schema = .record
    [("syntacticErrors", .listOf Diagnostic.schema), ("semanticErrors", .listOf Diagnostic.schema)] :=
  rfl

theorem violations_eq_nil (path : List Scalar) (v : Value) : schema.violations path v = [] ↔ HasShape v := by
  rw [schema_eq_record, record_eq_nil_iff (by simp)]
  simp only [List.forall_mem_cons, fieldFollows_listOf Diagnostic.violations_eq_nil, HasShape]
  simp

end Report

end CompilerAdapter
