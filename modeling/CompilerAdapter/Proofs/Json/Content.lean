import CompilerAdapter.Document.Display
import CompilerAdapter.Proofs.Document.Fields
import CompilerAdapter.Proofs.Json.Numbers

/-!
# What JSON text can hold

Whatever is read from JSON text is made of null, truth values, numbers that can be written, strings, lists, and objects
with distinct names: `content_of_read`.
-/

namespace CompilerAdapter.Json

inductive Content : Value → Prop where
  | null : Content .null
  | bool (b : Bool) : Content (.scalar (.bool b))
  | number {n : Number} (writable : n.isWritable = true) : Content (.number n)
  | string (s : String) : Content (.string s)
  | list {items : List Value} (all : ∀ item ∈ items, Content item) : Content (.list items)
  | object {fields : Fields} (named : fields.IsNamed) (distinct : (fields.map Prod.fst).Nodup)
      (all : ∀ field ∈ fields, Content field.2) : Content (.object fields)

theorem Content.items {items : List Value} (content : Content (.list items)) : ∀ item ∈ items, Content item := by
  cases content with
  | list all => exact all

theorem Content.fields {fields : Fields} (content : Content (.object fields)) :
    fields.IsNamed ∧ (fields.map Prod.fst).Nodup ∧ ∀ field ∈ fields, Content field.2 := by
  cases content with
  | object named distinct all => exact ⟨named, distinct, all⟩

/-! ### Numbers and words -/

theorem ofDigitChars_lt {digits : List Char} (all : ∀ c ∈ digits, c.isDigit = true) (start : Nat) :
    Nat.ofDigitChars 10 digits start < (start + 1) * 10 ^ digits.length := by
  induction digits generalizing start with
  | nil => simp
  | cons c digits ih =>
    rw [List.forall_mem_cons] at all
    have digit : c.toNat - '0'.toNat ≤ 9 := by
      have bounds : c.toNat ≤ '9'.toNat := (Char.isDigit_iff_toNat.mp all.1).2
      exact Nat.sub_le_sub_right bounds '0'.toNat
    have later := ih all.2 (10 * start + (c.toNat - '0'.toNat))
    rw [Nat.ofDigitChars_cons, List.length_cons, Nat.pow_succ]
    calc
      _ < (10 * start + (c.toNat - '0'.toNat) + 1) * 10 ^ digits.length := later
      _ ≤ ((start + 1) * 10) * 10 ^ digits.length := Nat.mul_le_mul_right _ (by omega)
      _ = (start + 1) * (10 ^ digits.length * 10) := by rw [Nat.mul_assoc, Nat.mul_comm 10]

theorem isDigit_of_wholeDigits {s digits rest : List Char} (cut : wholeDigits s = (digits, rest)) :
    ∀ c ∈ digits, c.isDigit = true := by
  intro c member
  unfold wholeDigits at cut
  split at cut
  · obtain ⟨rfl, _⟩ := Prod.mk.inj cut
    rw [List.mem_singleton.mp member]
    rfl
  · rw [List.span_eq_takeWhile_dropWhile] at cut
    obtain ⟨rfl, _⟩ := Prod.mk.inj cut
    exact List.all_eq_true.mp List.all_takeWhile c member

theorem isWritable_of_read {digits : List Char} (all : ∀ c ∈ digits, c.isDigit = true) {n : Nat}
    (found : Numeral.read digits = .ok n) {m : Int} (size : m.natAbs = n) : (Number.int m).isWritable = true := by
  unfold Numeral.read at found
  split at found
  · cases found
  · rename_i short
    have value : Numeral.value digits = n := Except.ok.inj found
    have small := ofDigitChars_lt all 0
    rw [Number.int_isWritable, size, ← value]
    calc
      Numeral.value digits < 10 ^ digits.length := by simpa [Numeral.value] using small
      _ ≤ 10 ^ Numeral.maxDigits := Nat.pow_le_pow_right (by decide) (Nat.le_of_not_lt short)

theorem content_of_readNumber {s rest : List Char} {v : Value} (found : readNumber s = .ok (v, rest)) : Content v := by
  unfold readNumber at found
  split at found
  rename_i negative unsigned _
  split at found
  rename_i whole behind cut
  split at found
  · cases found
  split at found
  rename_i fraction behind' _
  split at found
  · split at found
    · rename_i n made
      obtain ⟨rfl, _⟩ := Prod.mk.inj (Except.ok.inj found)
      refine .number (isWritable_of_read (isDigit_of_wholeDigits cut) made ?_)
      cases negative <;> simp
    · cases found
  · split at found
    obtain ⟨rfl, _⟩ := Prod.mk.inj (Except.ok.inj found)
    exact .number rfl

theorem content_of_word {word : List Char × Value} (member : word ∈ words) : Content word.2 := by
  simp only [words, List.mem_cons, List.not_mem_nil, or_false] at member
  rcases member with rfl | rfl | rfl | rfl | rfl | rfl
  · exact .null
  · exact .bool true
  · exact .bool false
  · exact .number rfl
  · exact .number rfl
  · exact .number rfl

theorem content_of_readSimple {s rest : List Char} {v : Value} (found : readSimple s = .ok (v, rest)) : Content v := by
  unfold readSimple at found
  split at found
  · rename_i word value first
    obtain ⟨rfl, _⟩ := Prod.mk.inj (Except.ok.inj found)
    exact content_of_word (List.mem_of_find?_eq_some first)
  · exact content_of_readNumber found

/-! ### Values -/

theorem Content.put {fields : Fields} (content : Content (.object fields)) (name : String) {v : Value}
    (added : Content v) : Content (.object (fields.put (.string name) v)) := by
  obtain ⟨named, distinct, all⟩ := content.fields
  refine .object (named.put name v) (Fields.nodup_put named distinct name v) fun field member => ?_
  rcases Fields.mem_put member with old | new
  · exact all field old
  · rw [new]
    exact added

/-- What is read, if anything is, is content. -/
def Yields (result : Read Value) : Prop := ∀ v rest, result = .ok (v, rest) → Content v

variable {fuel : Nat}

theorem yields_readItems (value : ∀ s, Yields (readValue fuel s))
    (items : ∀ before s, Content (.list before) → Yields (readItems fuel before s)) (before : List Value)
    (s : List Char) (content : Content (.list before)) : Yields (readItems (fuel + 1) before s) := by
  intro v rest found
  unfold readItems at found
  split at found
  · cases found
  · rename_i item behind first
    have added : Content item := value s item behind first
    have longer : ∀ other ∈ item :: before, Content other := List.forall_mem_cons.mpr ⟨added, content.items⟩
    split at found
    · obtain ⟨rfl, _⟩ := Prod.mk.inj (Except.ok.inj found)
      exact .list fun other member => longer other (List.mem_reverse.mp member)
    · exact items _ _ (.list longer) v rest found
    · cases found

theorem yields_readFields (value : ∀ s, Yields (readValue fuel s))
    (fields : ∀ before s, Content (.object before) → Yields (readFields fuel before s)) (before : Fields)
    (s : List Char) (content : Content (.object before)) : Yields (readFields (fuel + 1) before s) := by
  intro v rest found
  unfold readFields at found
  split at found
  · split at found
    · cases found
    · rename_i name _ _
      split at found
      · split at found
        · cases found
        · rename_i added behind first
          have longer := content.put name (value _ added behind first)
          dsimp only at found
          split at found
          · obtain ⟨rfl, _⟩ := Prod.mk.inj (Except.ok.inj found)
            exact longer
          · exact fields _ _ longer v rest found
          · cases found
      · cases found
  · cases found

theorem yields_readValue (items : ∀ before s, Content (.list before) → Yields (readItems fuel before s))
    (fields : ∀ before s, Content (.object before) → Yields (readFields fuel before s)) (s : List Char) :
    Yields (readValue (fuel + 1) s) := by
  intro v rest found
  have noItems : Content (.list []) := .list (by simp)
  have noFields : Content (.object []) := .object (by simp [Fields.IsNamed]) (by simp) (by simp)
  unfold readValue at found
  split at found
  · split at found
    · obtain ⟨rfl, _⟩ := Prod.mk.inj (Except.ok.inj found)
      exact .string _
    · cases found
  · split at found
    · obtain ⟨rfl, _⟩ := Prod.mk.inj (Except.ok.inj found)
      exact noItems
    · exact items _ _ noItems v rest found
  · split at found
    · obtain ⟨rfl, _⟩ := Prod.mk.inj (Except.ok.inj found)
      exact noFields
    · exact fields _ _ noFields v rest found
  · exact content_of_readSimple found

theorem yields_all (fuel : Nat) : (∀ s, Yields (readValue fuel s)) ∧
    (∀ before s, Content (.list before) → Yields (readItems fuel before s)) ∧
    ∀ before s, Content (.object before) → Yields (readFields fuel before s) := by
  induction fuel with
  | zero =>
    refine ⟨?_, ?_, ?_⟩
    · intro s v rest found
      cases found
    · intro before s _ v rest found
      cases found
    · intro before s _ v rest found
      cases found
  | succ fuel ih =>
    obtain ⟨value, items, fields⟩ := ih
    exact ⟨yields_readValue items fields, yields_readItems value items, yields_readFields value fields⟩

theorem content_of_read {text : List Char} {v : Value} (found : read text = .ok v) : Content v := by
  unfold read at found
  dsimp only at found
  split at found
  · cases found
  split at found
  · cases found
  · rename_i value rest first
    split at found
    · obtain rfl := Except.ok.inj found
      exact (yields_all _).1 _ value rest first
    · cases found

/-! ### Content can be shown -/

theorem areWritable_of_all {items : List Value} (all : ∀ item ∈ items, item.isWritable = true) :
    Value.areWritable items = true := by
  induction items with
  | nil => rfl
  | cons item items ih =>
    rw [List.forall_mem_cons] at all
    simp [Value.areWritable, all.1, ih all.2]

theorem fieldsAreWritable_of_all {fields : Fields} (named : fields.IsNamed)
    (all : ∀ field ∈ fields, field.2.isWritable = true) : Value.fieldsAreWritable fields = true := by
  induction fields with
  | nil => rfl
  | cons field fields ih =>
    obtain ⟨key, v⟩ := field
    obtain ⟨name, rfl⟩ : ∃ name, key = .string name := named (key, v) List.mem_cons_self
    rw [List.forall_mem_cons] at all
    have later := ih (fun field member => named field (List.mem_cons_of_mem _ member)) all.2
    simp [Value.fieldsAreWritable, Scalar.isWritable, all.1, later]

theorem Content.isWritable {v : Value} (content : Content v) : v.isWritable = true := by
  induction content with
  | null => rfl
  | bool _ => rfl
  | number writable => exact writable
  | string _ => rfl
  | list _ ih => exact areWritable_of_all ih
  | object named _ _ ih => exact fieldsAreWritable_of_all named ih

end CompilerAdapter.Json
