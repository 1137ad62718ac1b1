import CompilerAdapter.Document.Basic
import CompilerAdapter.Number.Basic
import CompilerAdapter.Proofs.Text.Parts

/-!
# Dotted paths

A dotted path leads from a document to a part of it, by the names of fields and by positions in lists.
-/

namespace CompilerAdapter.Value

/-- The field of an object that a segment names, or the item of a list at the position that it spells. -/
def child? : Value → List Char → Option Value
  | .object fields, segment => Fields.get? fields (.string (String.ofList segment))
  | .list items, segment =>
    let position := Numeral.value segment
    if Nat.toDigits 10 position = segment then items[position]? else none
  | _, _ => none

/-- The part of a document that a dotted path leads to. -/
def at? (v : Value) (path : String) : Option Value := (splitAtEach '.' path.toList).foldlM child? v

/-- Positions are spelled without zeros in front. -/
example : (Value.object [(.string "a", .list [.int 5])]).at? "a.0" = some (.int 5) ∧
    (Value.object [(.string "a", .list [.int 5])]).at? "a.00" = none := ⟨rfl, rfl⟩

variable {v part : Value} {path name : String}

theorem child?_of_field? (given : v.field? name = some part) : v.child? name.toList = some part := by
  cases v with
  | object fields => simpa [child?, field?] using given
  | _ => cases given

theorem child?_position {items : List Value} {index : Nat} {item : Value} (placed : items[index]? = some item) :
    (Value.list items).child? (Nat.toDigits 10 index) = some item := by
  have spelled : Numeral.value (Nat.toDigits 10 index) = index := Nat.ofDigitChars_ten_toDigits
  simp [child?, spelled, placed]

theorem at?_single (clean : '.' ∉ path.toList) : v.at? path = v.child? path.toList := by
  rw [at?, splitAtEach_of_not_mem clean]
  simp

theorem at?_append (segment : String) (clean : '.' ∉ segment.toList) :
    v.at? (path ++ "." ++ segment) = (v.at? path).bind (·.child? segment.toList) := by
  have whole : (path ++ "." ++ segment).toList = path.toList ++ '.' :: segment.toList := by simp
  rw [at?, whole, splitAtEach_append_cons, splitAtEach_of_not_mem clean, List.foldlM_append]
  simp [at?]

end CompilerAdapter.Value
