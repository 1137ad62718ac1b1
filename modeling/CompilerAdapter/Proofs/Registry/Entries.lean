import Mathlib.Data.List.Forall2
import CompilerAdapter.Proofs.Registry.Duplicates
import CompilerAdapter.Proofs.Registry.Shape

/-!
# The entries of a registry

A document in the shape of a registry has one entry for each of its codes, in the same order. None of its objects lies
around itself, so what its value shows in them is what they have.
-/

namespace CompilerAdapter

theorem Category.ofName?_name (c : Category) : ofName? c.name = some c := by
  cases c <;> rfl

namespace Registry

open Yaml (Document)

/-- The entry has a key, and what is said of it in a document. -/
structure Entry.Describes (e : Entry) (field : Scalar × Document) : Prop where
  key : e.key = field.1
  code : field.2.scalar? "code" = some (.number e.code)
  category : field.2.scalar? "category" = some (.string e.category.name)
  message : field.2.scalar? "message" = some (.string e.message)

variable {d part : Document} {fields : Fields Document} {field : Scalar × Document} {outer : List Document}
  {name : String}

theorem Entry.describes_ofField (shape : HasShape field.2) (fresh : field.2 ∉ outer)
    (shared : ∀ place ∈ outer, place.collections = field.2.collections) {fuel : Nat} (enough : 0 < fuel) :
    Describes (ofField (field.1, field.2.valueIn fuel outer)) field := by
  obtain ⟨fuel, rfl⟩ := Nat.exists_eq_add_one.mpr enough
  obtain ⟨_, ⟨n, code, _⟩, ⟨name, category, named⟩, ⟨s, message, _⟩⟩ := shape
  obtain ⟨c, _, rfl⟩ := List.mem_map.mp named
  have shown {name : String} {s : Scalar} (given : field.2.scalar? name = some s) :
      (field.2.valueIn (fuel + 1) outer).field? name = some (.scalar s) :=
    Document.field?_valueIn_of_scalar? given fresh shared
  exact
    { key := rfl
      code := by simpa [ofField, shown code] using code
      category := by simpa [ofField, shown category, Category.ofName?_name] using category
      message := by simpa [ofField, shown message] using message }

theorem Entry.Describes.isCount {e : Entry} (described : Describes e field) (shape : HasShape field.2) :
    e.code.IsCount := by
  obtain ⟨n, given, count⟩ := shape.code
  obtain rfl : e.code = n := by simpa [given] using described.code.symm
  exact count

theorem exists_field_of_mem {entries : List Entry} (described : List.Forall₂ Entry.Describes entries fields) {e : Entry}
    (member : e ∈ entries) : ∃ field ∈ fields, Entry.Describes e field := by
  induction described with
  | nil => cases member
  | cons first _ ih =>
    rcases List.mem_cons.mp member with rfl | behind
    · exact ⟨_, List.mem_cons_self, first⟩
    · obtain ⟨field, later, here⟩ := ih behind
      exact ⟨field, List.mem_cons_of_mem _ later, here⟩

/-! ### No object lies around itself -/

theorem scalar?_of_entries (layer : Layered.layer d = .object fields)
    (each : ∀ field ∈ fields, Entry.HasShape field.2) : d.scalar? name = none := by
  rw [Option.eq_none_iff_forall_ne_some]
  intro s given
  obtain ⟨own, inner, again, member, shown⟩ := Document.exists_layer_of_scalar? given
  obtain rfl : own = fields := by simpa [layer] using again.symm
  obtain ⟨_, object, _⟩ := (each _ member).closed
  rw [object] at shown
  cases shown

/-- A registry has a version and an entry has a code, while all fields of the codes hold objects. -/
theorem ne_codes_of_scalar? {s : Scalar} (given : d.scalar? name = some s)
    (layer : Layered.layer part = .object fields) (each : ∀ field ∈ fields, Entry.HasShape field.2) : d ≠ part := by
  rintro rfl
  rw [scalar?_of_entries layer each] at given
  cases given

theorem Entry.HasShape.ne_registry (shape : Entry.HasShape part) (registry : Registry.HasShape d) : part ≠ d := by
  rintro rfl
  obtain ⟨fields, layer, closed⟩ := registry.closed
  obtain ⟨_, given, _⟩ := shape.code
  obtain ⟨own, inner, again, member, _⟩ := Document.exists_layer_of_scalar? given
  obtain rfl : own = fields := by simpa [layer] using again.symm
  obtain ⟨name, known, same⟩ := closed _ member
  obtain rfl : "code" = name := by simpa using same
  exact absurd known (by decide)

/-! ### All entries -/

theorem ofValue_eq {v : Value} {own : Fields} (given : v.field? "codes" = some (.object own)) :
    ofValue v = (duplicateFrom? [] (own.map Entry.ofField)).elim (.ok (own.map Entry.ofField)) .error := by
  simp only [ofValue, given]
  cases duplicateFrom? [] (own.map Entry.ofField) <;> rfl

theorem field?_codes_value (given : d.field? "codes" = some part) (inside : Layered.layer part = .object fields)
    (apart : part ≠ d) : (Layered.value d).field? "codes" = some
      (.object (fields.map fun field => (field.1, field.2.valueIn (2 * d.collections.all.size) [part, d]))) := by
  have together : part.collections = d.collections := Document.collections_of_field? given
  rw [Document.field?_value given, Document.valueIn_of_object inside (by simpa using apart) (by simp [together])]

theorem exists_described (shape : HasShape d) : ∃ part fields entries found, d.field? "codes" = some part ∧
    Layered.layer part = .object fields ∧ List.Forall₂ Entry.Describes entries fields ∧
    SearchOutcome entries found ∧ ofValue (Layered.value d) = found.elim (.ok entries) .error := by
  obtain ⟨part, fields, given, inside, _, form⟩ := shape.codes
  obtain ⟨_, version, _⟩ := shape.version
  have each (field) (member : field ∈ fields) : Entry.HasShape field.2 := (form field member).2
  have describes (field) (member : field ∈ fields) : Entry.Describes
      (Entry.ofField (field.1, field.2.valueIn (2 * d.collections.all.size) [part, d])) field := by
    have entry := each field member
    obtain ⟨_, code, _⟩ := entry.code
    have common : field.2.collections = part.collections := Document.collections_of_mem inside member
    have together : part.collections = d.collections := Document.collections_of_field? given
    have enough := Document.size_pos_of_object inside
    rw [together] at enough
    apply Entry.describes_ofField entry
    · simpa using ⟨ne_codes_of_scalar? code inside each, entry.ne_registry shape⟩
    · simp [common, together]
    · omega
  rw [ofValue_eq (field?_codes_value given inside (ne_codes_of_scalar? version inside each).symm), List.map_map]
  refine ⟨part, fields, _, _, given, inside, ?_, searchOutcome ?_, rfl⟩
  · rw [List.forall₂_map_left_iff, List.forall₂_same]
    exact describes
  · rw [List.forall_mem_map]
    exact fun field member => (describes field member).isCount (each field member)

/-- The entries that a document leaves have the keys of its codes. -/
theorem isAdmittedKey_of_ofValue (shape : HasShape d) {entries : List Entry}
    (made : ofValue (Layered.value d) = .ok entries) {e : Entry} (member : e ∈ entries) : IsAdmittedKey e.key := by
  obtain ⟨part, fields, own, found, given, inside, described, search, outcome⟩ := exists_described shape
  obtain ⟨part', fields', given', inside', _, form⟩ := shape.codes
  obtain rfl : part' = part := Option.some.inj (given'.symm.trans given)
  obtain rfl : fields' = fields := by simpa [inside] using inside'.symm
  rw [outcome] at made
  cases search with
  | distinct all =>
    obtain rfl : own = entries := Except.ok.inj made
    obtain ⟨field, listed, here⟩ := exists_field_of_mem described member
    rw [here.key]
    exact (form field listed).1
  | shared first => cases made

end Registry

end CompilerAdapter
