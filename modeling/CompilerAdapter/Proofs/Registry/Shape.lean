import CompilerAdapter.Proofs.Number.Value
import CompilerAdapter.Proofs.Registry.Keys
import CompilerAdapter.Proofs.Schema.Rules
import CompilerAdapter.Proofs.Yaml.Places

/-!
# The shape of registries

Which documents follow the schema of a registry, told without a schema: `violations_eq_nil`. The schema has a pattern
for keys that are strings and admits all other scalars.
-/

namespace CompilerAdapter.Registry

open Yaml (Document)

/-- An object with a count, a category and a text, and with nothing else. -/
structure Entry.HasShape (d : Document) : Prop where
  closed : ∃ fields, Layered.layer d = .object fields ∧ ∀ field ∈ fields, ∃ name ∈ entryFields, field.1 = .string name
  code : ∃ n, d.scalar? "code" = some (.number n) ∧ n.IsCount
  category : ∃ name, d.scalar? "category" = some (.string name) ∧ name ∈ Category.all.map (·.name)
  message : ∃ s, d.scalar? "message" = some (.string s) ∧ s ≠ ""

/-- A key that is an identifier, with or without a line feed behind it, or no string at all. -/
def IsAdmittedKey (key : Scalar) : Prop :=
  ∀ s, key = .string s → IsIdentifier s.toList ∨ ∃ name, IsIdentifier name ∧ s.toList = name ++ ['\n']

/-- Of the strings among the keys, the identifiers are the ones that do not end in a line feed. -/
theorem IsAdmittedKey.isIdentifier_iff {key : Scalar} (admitted : IsAdmittedKey key) :
    (∃ name, key = .string name ∧ IsIdentifier name.toList) ↔
      ∃ s, key = .string s ∧ s.toList.getLast? ≠ some '\n' := by
  constructor
  · intro named
    obtain ⟨name, rfl, identifier⟩ := named
    refine ⟨name, rfl, fun last => ?_⟩
    obtain ⟨front, same⟩ := List.getLast?_eq_some_iff.mp last
    rw [same] at identifier
    exact identifier.not_snoc_lineFeed
  · intro text
    obtain ⟨s, rfl, last⟩ := text
    rcases admitted s rfl with identifier | ⟨name, _, same⟩
    · exact ⟨s, rfl, identifier⟩
    · rw [same, List.getLast?_concat] at last
      exact absurd rfl last

/-- An object with a version and one entry or more, and with nothing else. -/
structure HasShape (d : Document) : Prop where
  closed : ∃ fields, Layered.layer d = .object fields ∧
    ∀ field ∈ fields, ∃ name ∈ ["version", "codes"], field.1 = .string name
  version : ∃ s, d.scalar? "version" = some (.string s) ∧ versionPattern.test (· == ·) s.toList = true
  codes : ∃ part fields, d.field? "codes" = some part ∧ Layered.layer part = .object fields ∧ fields ≠ [] ∧
    ∀ field ∈ fields, IsAdmittedKey field.1 ∧ Entry.HasShape field.2

variable {path : List Scalar} {d : Document} {fields : Fields Document}

/-- A field with a scalar that follows its schema. -/
theorem scalar_follows_iff {β : Type} {schema : Schema} {form : β → Scalar} {P : β → Prop} {name : String}
    (layer : Layered.layer d = .object fields)
    (judged : ∀ part : Document, schema.violations path part = [] ↔ ∃ a, Layered.layer part = .scalar (form a) ∧ P a) :
    (∃ part, Fields.get? fields (.string name) = some part ∧ schema.violations path part = []) ↔
      ∃ a, d.scalar? name = some (form a) ∧ P a := by
  simp only [Document.scalar?_eq_some, Document.field?_eq layer, judged]
  constructor
  · intro follows
    obtain ⟨part, given, a, shown, good⟩ := follows
    exact ⟨a, ⟨part, given, shown⟩, good⟩
  · intro shape
    obtain ⟨a, ⟨part, given, shown⟩, good⟩ := shape
    exact ⟨part, given, a, shown, good⟩

/-! ### Entries -/

theorem code_eq_nil (part : Document) : (Schema.count 1).violations path part = [] ↔
    ∃ n, Layered.layer part = .scalar (.number n) ∧ n.IsCount := by
  simp only [violations_count_eq_nil, Number.isCount_iff]

def categorySchema : Schema := .of none [.oneOf ["warning", "error", "suggestion", "message"]]

theorem category_eq_nil (part : Document) : categorySchema.violations path part = [] ↔
    ∃ name, Layered.layer part = .scalar (.string name) ∧ name ∈ Category.all.map (·.name) := by
  rw [categorySchema, violations_of_none_eq_nil, List.forall_mem_singleton, Rule.oneOf_eq_nil]
  exact exists_congr fun _ => and_comm

def messageSchema : Schema := .of (some .string) [.nonEmpty]

theorem message_eq_nil (part : Document) : messageSchema.violations path part = [] ↔
    ∃ s, Layered.layer part = .scalar (.string s) ∧ s ≠ "" := by
  rw [messageSchema, violations_of_eq_nil, admits_string, Rule.allViolations_eq_nil, List.forall_mem_singleton]
  constructor
  · intro free
    obtain ⟨⟨s, shown⟩, filled⟩ := free
    exact ⟨s, shown, (Rule.nonEmpty_string_eq_nil shown).mp filled⟩
  · intro shape
    obtain ⟨s, shown, filled⟩ := shape
    exact ⟨⟨s, shown⟩, (Rule.nonEmpty_string_eq_nil shown).mpr filled⟩

theorem entrySchema_eq : entrySchema =
    .closedRecord [("code", .count 1), ("category", categorySchema), ("message", messageSchema)] :=
  rfl

theorem Entry.violations_eq_nil : entrySchema.violations path d = [] ↔ Entry.HasShape d := by
  rw [entrySchema_eq, violations_closedRecord_eq_nil]
  simp only [List.forall_mem_cons, List.not_mem_nil, false_imp_iff, implies_true, and_true]
  constructor
  · intro free
    obtain ⟨fields, layer, ⟨code, category, message⟩, closed⟩ := free
    rw [scalar_follows_iff layer code_eq_nil] at code
    rw [scalar_follows_iff layer category_eq_nil] at category
    rw [scalar_follows_iff layer message_eq_nil] at message
    exact ⟨⟨fields, layer, closed⟩, code, category, message⟩
  · intro shape
    obtain ⟨⟨fields, layer, closed⟩, code, category, message⟩ := shape
    refine ⟨fields, layer, ⟨?_, ?_, ?_⟩, closed⟩
    · exact (scalar_follows_iff layer code_eq_nil).mpr code
    · exact (scalar_follows_iff layer category_eq_nil).mpr category
    · exact (scalar_follows_iff layer message_eq_nil).mpr message

/-! ### Registries -/

def versionSchema : Schema := .of (some .string) [.matching versionPattern]

theorem version_eq_nil (part : Document) : versionSchema.violations path part = [] ↔
    ∃ s, Layered.layer part = .scalar (.string s) ∧ versionPattern.test (· == ·) s.toList = true := by
  rw [versionSchema, violations_of_eq_nil, admits_string, Rule.allViolations_eq_nil, List.forall_mem_singleton,
    Rule.matching_eq_nil]
  constructor
  · intro free
    obtain ⟨⟨s, shown⟩, matched⟩ := free
    exact ⟨s, shown, matched s shown⟩
  · intro shape
    obtain ⟨s, shown, matched⟩ := shape
    refine ⟨⟨s, shown⟩, fun t again => ?_⟩
    obtain rfl : s = t := by simpa [shown] using again
    exact matched

def keySchema : Schema := .of none [.matching keyPattern]

theorem key_eq_nil (key : Scalar) :
    keySchema.violations path (Layered.ofScalar key : Document) = [] ↔ IsAdmittedKey key := by
  rw [keySchema, violations_of_none_eq_nil, List.forall_mem_singleton, Rule.matching_eq_nil]
  have layer : Layered.layer (Layered.ofScalar key : Document) = .scalar key := rfl
  simp only [layer, Layer.scalar.injEq, keyPattern_test_iff, IsAdmittedKey]

def codesSchema : Schema := .of (some .object) [.nonEmpty, .keys keySchema, .others [] entrySchema]

theorem codes_eq_nil (part : Document) : codesSchema.violations path part = [] ↔
    ∃ fields, Layered.layer part = .object fields ∧ fields ≠ [] ∧
      ∀ field ∈ fields, IsAdmittedKey field.1 ∧ Entry.HasShape field.2 := by
  rw [codesSchema, violations_of_eq_nil, admits_object, Rule.allViolations_eq_nil]
  simp only [List.forall_mem_cons, List.not_mem_nil, false_imp_iff, implies_true, and_true]
  have rules (fields : Fields Document) (layer : Layered.layer part = .object fields) :
      (Rule.violations path part false .nonEmpty = [] ∧ Rule.violations path part false (.keys keySchema) = [] ∧
        Rule.violations path part false (.others [] entrySchema) = []) ↔
      fields ≠ [] ∧ ∀ field ∈ fields, IsAdmittedKey field.1 ∧ Entry.HasShape field.2 := by
    rw [Rule.nonEmpty_object_eq_nil layer, Rule.keys_eq_nil layer, Rule.others_nil_eq_nil layer]
    simp only [key_eq_nil, Entry.violations_eq_nil, forall_and]
  constructor
  · intro free
    obtain ⟨⟨fields, layer⟩, each⟩ := free
    exact ⟨fields, layer, (rules fields layer).mp each⟩
  · intro shape
    obtain ⟨fields, layer, each⟩ := shape
    exact ⟨⟨fields, layer⟩, (rules fields layer).mpr each⟩

theorem schema_eq : schema = .closedRecord [("version", versionSchema), ("codes", codesSchema)] :=
  rfl

theorem violations_eq_nil : schema.violations path d = [] ↔ HasShape d := by
  rw [schema_eq, violations_closedRecord_eq_nil]
  simp only [List.forall_mem_cons, List.not_mem_nil, false_imp_iff, implies_true, and_true]
  constructor
  · intro free
    obtain ⟨fields, layer, ⟨version, part, given, follows⟩, closed⟩ := free
    rw [scalar_follows_iff layer version_eq_nil] at version
    obtain ⟨entries, inside, form⟩ := (codes_eq_nil part).mp follows
    exact ⟨⟨fields, layer, closed⟩, version, part, entries, (Document.field?_eq layer).trans given, inside, form⟩
  · intro shape
    obtain ⟨⟨fields, layer, closed⟩, version, part, entries, given, inside, form⟩ := shape
    refine ⟨fields, layer, ⟨?_, part, (Document.field?_eq layer).symm.trans given, ?_⟩, closed⟩
    · exact (scalar_follows_iff layer version_eq_nil).mpr version
    · exact (codes_eq_nil part).mpr ⟨entries, inside, form⟩

end CompilerAdapter.Registry
