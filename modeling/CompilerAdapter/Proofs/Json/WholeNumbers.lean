import CompilerAdapter.Proofs.Json.Content
import CompilerAdapter.Proofs.Json.RoundTrip

/-!
# Values with whole numbers

What has been read from JSON text can be written and read again without loss if all its numbers are whole:
`Content.lossless`.
-/

namespace CompilerAdapter

def Scalar.number? : Scalar → Option Number
  | .number n => some n
  | _ => none

namespace Value

mutual

/-- The numbers in a value, those among its keys included. -/
def numbers : Value → List Number
  | .scalar s => s.number?.toList
  | .list items => itemNumbers items
  | .object fields => fieldNumbers fields
  | .pair a b => numbers a ++ numbers b
  | .set members => members.filterMap Scalar.number?
  | .enclosing _ => []

def itemNumbers : List Value → List Number
  | [] => []
  | v :: rest => numbers v ++ itemNumbers rest

def fieldNumbers : List (Scalar × Value) → List Number
  | [] => []
  | (k, v) :: rest => k.number?.toList ++ (numbers v ++ fieldNumbers rest)

end

def HasWholeNumbers (v : Value) : Prop := ∀ n ∈ v.numbers, ∃ k : Int, n = .int k

variable {v : Value}

theorem mem_itemNumbers {items : List Value} {n : Number} (member : v ∈ items) (here : n ∈ v.numbers) :
    n ∈ itemNumbers items := by
  induction items with
  | nil => cases member
  | cons item items ih =>
    rw [itemNumbers, List.mem_append]
    rcases List.mem_cons.mp member with rfl | behind
    · exact .inl here
    · exact .inr (ih behind)

theorem mem_fieldNumbers {fields : Fields} {field : Scalar × Value} {n : Number} (member : field ∈ fields)
    (here : n ∈ field.2.numbers) : n ∈ fieldNumbers fields := by
  induction fields with
  | nil => cases member
  | cons first fields ih =>
    obtain ⟨key, w⟩ := first
    rw [fieldNumbers, List.mem_append, List.mem_append]
    rcases List.mem_cons.mp member with rfl | behind
    · exact .inr (.inl here)
    · exact .inr (.inr (ih behind))

theorem HasWholeNumbers.item {items : List Value} (whole : (Value.list items).HasWholeNumbers) (member : v ∈ items) :
    v.HasWholeNumbers :=
  fun n here => whole n (mem_itemNumbers member here)

theorem HasWholeNumbers.field {fields : Fields} {field : Scalar × Value} (whole : (Value.object fields).HasWholeNumbers)
    (member : field ∈ fields) : field.2.HasWholeNumbers :=
  fun n here => whole n (mem_fieldNumbers member here)

end Value

namespace Json

theorem Lossless.put {fields : Fields} (lossless : Lossless (.object fields)) (name : String) {v : Value}
    (added : Lossless v) : Lossless (.object (fields.put (.string name) v)) := by
  cases lossless with
  | object named distinct all =>
    refine .object (named.put name v) (Fields.nodup_put named distinct name v) fun field member => ?_
    rcases Fields.mem_put member with old | new
    · exact all field old
    · rw [new]
      exact added

theorem Content.lossless {v : Value} (content : Content v) (whole : v.HasWholeNumbers) : Lossless v := by
  induction content with
  | null => exact .null
  | bool b => exact .bool b
  | @number n writable =>
    obtain ⟨k, rfl⟩ := whole n (by simp [Value.number, Value.numbers, Scalar.number?])
    exact .int writable
  | string s => exact .string s
  | list _ ih => exact .list fun item member => ih item member (whole.item member)
  | object named distinct _ ih =>
    exact .object named distinct fun field member => ih field member (whole.field member)

end Json

end CompilerAdapter
