import CompilerAdapter.Proofs.Document.Fields
import CompilerAdapter.Yaml.Document

/-!
# Places in a document

What a document has in its fields, told from its layers and from its value. A collection that lies around a place is
only marked in the value, so the two agree on a field exactly where its object does not lie around itself.
-/

namespace CompilerAdapter.Yaml.Document

/-- What a document has in a field. -/
def field? (d : Document) (name : String) : Option Document :=
  match Layered.layer d with
  | .object fields => Fields.get? fields (.string name)
  | _ => none

/-- The scalar that a document has in a field. -/
def scalar? (d : Document) (name : String) : Option Scalar :=
  (d.field? name).bind fun part =>
    match Layered.layer part with
    | .scalar s => some s
    | _ => none

/-- The number of the collection at a place. -/
def id? (d : Document) : Option Nat :=
  match d.root with
  | .collection id => some id
  | _ => none

/-- A place as a value, inside of the places in `outer`. -/
def valueIn (d : Document) (fuel : Nat) (outer : List Document) : Value :=
  d.collections.value fuel (outer.filterMap id?) d.root

variable {d part : Document} {fields : Fields Document} {s : Scalar} {name : String} {fuel : Nat}
  {outer : List Document}

/-! ### Layers -/

theorem field?_eq (layer : Layered.layer d = .object fields) : d.field? name = Fields.get? fields (.string name) := by
  simp [field?, layer]

theorem scalar?_eq_some :
    d.scalar? name = some s ↔ ∃ part, d.field? name = some part ∧ Layered.layer part = .scalar s := by
  rw [scalar?, Option.bind_eq_some_iff]
  refine exists_congr fun part => and_congr_right fun _ => ?_
  split
  · rename_i layer
    simp [layer]
  · rename_i other
    exact iff_of_false (by simp) (other s)

theorem exists_layer_of_field? (given : d.field? name = some part) :
    ∃ fields, Layered.layer d = .object fields ∧ (.string name, part) ∈ fields := by
  unfold field? at given
  split at given
  · rename_i fields layer
    exact ⟨fields, layer, Fields.mem_of_get? given⟩
  · cases given

theorem exists_layer_of_scalar? (given : d.scalar? name = some s) : ∃ fields part, Layered.layer d = .object fields ∧
    (.string name, part) ∈ fields ∧ Layered.layer part = .scalar s := by
  obtain ⟨part, found, shown⟩ := scalar?_eq_some.mp given
  obtain ⟨fields, layer, member⟩ := exists_layer_of_field? found
  exact ⟨fields, part, layer, member, shown⟩

theorem root_of_scalar (layer : Layered.layer d = .scalar s) : d.root = .scalar s := by
  obtain ⟨collections, root⟩ := d
  cases root with
  | scalar t => simpa [Layered.layer, Collections.layer] using layer
  | pair => simp [Layered.layer, Collections.layer] at layer
  | collection id =>
    revert layer
    simp only [Layered.layer, Collections.layer]
    cases collections.get id <;> simp

theorem root_of_object (layer : Layered.layer d = .object fields) : ∃ id own, d.root = .collection id ∧
    d.collections.get id = .object own ∧ fields = own.map fun field => (field.1, { d with root := field.2 }) := by
  obtain ⟨collections, root⟩ := d
  cases root with
  | scalar t => simp [Layered.layer, Collections.layer] at layer
  | pair => simp [Layered.layer, Collections.layer] at layer
  | collection id =>
    cases got : collections.get id with
    | object own =>
      refine ⟨id, own, rfl, got, ?_⟩
      simpa [Layered.layer, Collections.layer, got, eq_comm] using layer
    | list items => simp [Layered.layer, Collections.layer, got] at layer
    | set members => simp [Layered.layer, Collections.layer, got] at layer

theorem collections_of_mem (layer : Layered.layer d = .object fields) {field : Scalar × Document}
    (member : field ∈ fields) : field.2.collections = d.collections := by
  obtain ⟨id, own, _, _, rfl⟩ := root_of_object layer
  obtain ⟨inner, _, rfl⟩ := List.mem_map.mp member
  rfl

theorem collections_of_field? (given : d.field? name = some part) : part.collections = d.collections := by
  obtain ⟨fields, layer, member⟩ := exists_layer_of_field? given
  exact collections_of_mem layer member

theorem size_pos_of_object (layer : Layered.layer d = .object fields) : 0 < d.collections.all.size := by
  obtain ⟨id, own, _, got, _⟩ := root_of_object layer
  rcases Nat.lt_or_ge id d.collections.all.size with inside | outside
  · omega
  · simp [Collections.get, outside] at got

/-! ### Values -/

theorem valueIn_of_scalar (layer : Layered.layer d = .scalar s) : d.valueIn fuel outer = .scalar s := by
  rw [valueIn, root_of_scalar layer]
  cases fuel <;> rfl

/-- An object that does not lie around itself is shown with its fields. -/
theorem valueIn_of_object (layer : Layered.layer d = .object fields) (fresh : d ∉ outer)
    (shared : ∀ place ∈ outer, place.collections = d.collections) : d.valueIn (fuel + 1) outer =
      .object (fields.map fun field => (field.1, field.2.valueIn fuel (d :: outer))) := by
  obtain ⟨id, own, root, got, rfl⟩ := root_of_object layer
  have number : d.id? = some id := by simp [id?, root]
  have unmarked : id ∉ outer.filterMap id? := by
    intro marked
    obtain ⟨place, member, same⟩ := List.mem_filterMap.mp marked
    have samePlace : place = d := by
      obtain ⟨collections, other⟩ := place
      cases other with
      | collection other =>
        obtain rfl : other = id := by simpa [id?] using same
        obtain rfl : collections = d.collections := shared _ member
        rw [← root]
      | _ => simp [id?] at same
    exact fresh (samePlace ▸ member)
  simp [valueIn, root, Collections.value, got, unmarked, number]

theorem field?_valueIn (layer : Layered.layer d = .object fields) (fresh : d ∉ outer)
    (shared : ∀ place ∈ outer, place.collections = d.collections) :
    (d.valueIn (fuel + 1) outer).field? name = (d.field? name).map (·.valueIn fuel (d :: outer)) := by
  rw [valueIn_of_object layer fresh shared, field?_eq layer]
  exact Fields.get?_map fun part : Document => part.valueIn fuel (d :: outer)

theorem field?_value (given : d.field? name = some part) :
    (Layered.value d).field? name = some (part.valueIn (2 * d.collections.all.size + 1) [d]) := by
  obtain ⟨fields, layer, _⟩ := exists_layer_of_field? given
  show (d.valueIn (2 * d.collections.all.size + 1 + 1) []).field? name = _
  rw [field?_valueIn layer (by simp) (by simp), given, Option.map_some]

theorem field?_valueIn_of_scalar? (given : d.scalar? name = some s) (fresh : d ∉ outer)
    (shared : ∀ place ∈ outer, place.collections = d.collections) :
    (d.valueIn (fuel + 1) outer).field? name = some (.scalar s) := by
  obtain ⟨fields, _, layer, _⟩ := exists_layer_of_scalar? given
  obtain ⟨part, found, shown⟩ := scalar?_eq_some.mp given
  rw [field?_valueIn layer fresh shared, found, Option.map_some, valueIn_of_scalar shown]

end CompilerAdapter.Yaml.Document
