import Mathlib.Data.List.Forall2
import Mathlib.Data.List.Nodup
import CompilerAdapter.Proofs.Document.Fields

/-!
# Documents without unknown fields

An object can be restricted to the fields of certain names. The order of its fields does not matter: `Reordered`.
-/

namespace CompilerAdapter

def Scalar.isAmong (key : Scalar) (names : List String) : Bool := names.any fun name => key == .string name

namespace Value

/-- An object without the fields of other names. -/
def restrict (names : List String) : Value → Value
  | .object fields => .object (fields.filter fun field => field.1.isAmong names)
  | other => other

def mapItems (change : Value → Value) : Value → Value
  | .list items => .list (items.map change)
  | other => other

def mapFields (change : Value → Value) : Value → Value
  | .object fields => .object (fields.map fun field => (field.1, change field.2))
  | other => other

/-- Two documents are the same up to the order of the fields of objects. -/
inductive Reordered : Value → Value → Prop where
  | same (v : Value) : Reordered v v
  | list {items others : List Value} (each : List.Forall₂ Reordered items others) :
      Reordered (.list items) (.list others)
  | object {fields between others : Fields} (order : fields.Perm between)
      (names : between.map Prod.fst = others.map Prod.fst)
      (each : List.Forall₂ Reordered (between.map Prod.snd) (others.map Prod.snd)) :
      Reordered (.object fields) (.object others)

theorem Reordered.of_perm {fields others : Fields} (order : fields.Perm others) :
    Reordered (.object fields) (.object others) :=
  .object order rfl (List.forall₂_same.mpr fun v _ => .same v)

end Value

namespace Fields

variable {fields known : Fields} {names : List String}

theorem isAmong_iff {key : Scalar} : key.isAmong names = true ↔ key ∈ names.map Scalar.string := by
  rw [Scalar.isAmong, List.any_eq_true, List.mem_map]
  refine exists_congr fun name => and_congr_right fun _ => ?_
  rw [beq_iff_eq, eq_comm]

/-- The fields of certain names, in an order of choice. -/
theorem filter_perm (named : fields.IsNamed) (distinct : (fields.map Prod.fst).Nodup) (once : names.Nodup)
    (listed : known.map Prod.fst = names.map Scalar.string)
    (given : ∀ name v, (.string name, v) ∈ known → fields.get? (.string name) = some v) :
    (fields.filter fun field => field.1.isAmong names).Perm known := by
  have onceKnown : known.Nodup := by
    apply List.Nodup.of_map Prod.fst
    rw [listed]
    exact once.map fun _ _ same => Scalar.string.inj same
  rw [List.perm_ext_iff_of_nodup ((distinct.of_map Prod.fst).filter _) onceKnown]
  intro ⟨key, v⟩
  rw [List.mem_filter, isAmong_iff, ← listed]
  constructor
  · intro found
    obtain ⟨member, among⟩ := found
    obtain ⟨⟨_, w⟩, here, rfl⟩ := List.mem_map.mp among
    obtain ⟨name, rfl⟩ := named _ member
    have same : w = v := Option.some.inj ((given name w here).symm.trans ((get?_eq_some_iff named distinct).mpr member))
    exact same ▸ here
  · intro member
    have among : key ∈ known.map Prod.fst := List.mem_map_of_mem (f := Prod.fst) member
    have listedKey : key ∈ names.map Scalar.string := listed ▸ among
    obtain ⟨name, _, rfl⟩ := List.mem_map.mp listedKey
    exact ⟨(get?_eq_some_iff named distinct).mp (given name v member), among⟩

end Fields

end CompilerAdapter
