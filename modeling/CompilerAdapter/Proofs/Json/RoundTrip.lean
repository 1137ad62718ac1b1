import CompilerAdapter.Proofs.Document.Fields
import CompilerAdapter.Proofs.Json.Numbers
import CompilerAdapter.Proofs.Json.Strings

/-!
# JSON text and back

Values made of null, truth values, writable whole numbers, strings, lists and objects with distinct names are read back
from their text as they were written: `read_write`. Nothing keeps them from being written: `Lossless.obstacle?_eq_none`.
-/

namespace CompilerAdapter.Json

/-- The values that are read back as they were written. -/
inductive Lossless : Value → Prop where
  | null : Lossless .null
  | bool (b : Bool) : Lossless (.scalar (.bool b))
  | int {n : Int} (writable : (Number.int n).isWritable = true) : Lossless (.int n)
  | string (s : String) : Lossless (.string s)
  | list {items : List Value} (all : ∀ item ∈ items, Lossless item) : Lossless (.list items)
  | object {fields : Fields} (named : fields.IsNamed) (distinct : (fields.map Prod.fst).Nodup)
      (all : ∀ field ∈ fields, Lossless field.2) : Lossless (.object fields)

/-- A character that a value may start with: not blank, and not the end of a list. -/
def Opening (c : Char) : Prop := isBlank c = false ∧ c ≠ ']' ∧ c ≠ '\ufeff'

instance (c : Char) : Decidable (Opening c) := inferInstanceAs (Decidable (_ ∧ _))

/-- A value is read from its text wherever it may stand. Two units of fuel for each character are enough. -/
structure Reads (v : Value) : Prop where
  opens : ∃ c text, write v = c :: text ∧ Opening c
  reads : ∀ fuel rest, Closing rest → 2 * (write v).length ≤ fuel → readValue fuel (write v ++ rest) = .ok (v, rest)

variable {v : Value} {rest : List Char}

theorem Reads.of_succ {c : Char} {text : List Char} (shape : write v = c :: text) (opening : Opening c)
    (step : ∀ fuel rest, Closing rest → 2 * text.length < fuel →
      readValue (fuel + 1) (c :: (text ++ rest)) = .ok (v, rest)) : Reads v := by
  refine ⟨⟨c, text, shape, opening⟩, fun fuel rest closing enough => ?_⟩
  rw [shape] at enough ⊢
  rw [List.length_cons] at enough
  obtain ⟨fuel, rfl⟩ : ∃ less, fuel = less + 1 := ⟨fuel - 1, by omega⟩
  exact step fuel rest closing (by omega)

theorem skipBlank_space (s : List Char) : skipBlank (' ' :: s) = skipBlank s := rfl

theorem skipBlank_cons {c : Char} (visible : isBlank c = false) (s : List Char) : skipBlank (c :: s) = c :: s := by
  simp [skipBlank, visible]

theorem Reads.skipBlank_append (reads : Reads v) (rest : List Char) :
    skipBlank (write v ++ rest) = write v ++ rest := by
  obtain ⟨c, text, shape, opening⟩ := reads.opens
  rw [shape]
  exact skipBlank_cons opening.1 _

/-! ### Simple values -/

theorem reads_null : Reads .null :=
  .of_succ rfl (by decide) fun _ _ _ _ => rfl

theorem reads_bool (b : Bool) : Reads (.scalar (.bool b)) := by
  cases b with
  | true => exact .of_succ rfl (by decide) fun _ _ _ _ => rfl
  | false => exact .of_succ rfl (by decide) fun _ _ _ _ => rfl

theorem readValue_string {s t : List Char} {text : String} (read : readString ('"' :: s) = .ok (text, t)) (fuel : Nat) :
    readValue (fuel + 1) ('"' :: s) = .ok (.string text, t) := by
  rw [readValue.eq_def]
  simp [read]

theorem reads_string (s : String) : Reads (.string s) := by
  refine .of_succ rfl (by decide) fun fuel rest _ _ => readValue_string ?_ fuel
  have read := readString_writeString s.toList rest
  rw [String.ofList_toList] at read
  exact read

theorem ne_of_isDigit {c d : Char} (digit : d.isDigit = true) (other : c.isDigit = false) : c ≠ d := by
  intro same
  rw [same, digit] at other
  exact Bool.noConfusion other

theorem opening_of_isDigit {c : Char} (digit : c.isDigit = true) : Opening c := by
  have other (d : Char) (h : d.isDigit = false) : c ≠ d := (ne_of_isDigit digit h).symm
  unfold Opening isBlank
  simp [other]

/-- A text that starts like a number is no word. -/
theorem readSimple_intText (n : Int) (rest : List Char) :
    readSimple (intText n ++ rest) = readNumber (intText n ++ rest) := by
  obtain ⟨d, digits, shape, digit⟩ := Numeral.toDigits_eq_cons n.natAbs
  have other (c : Char) (h : c.isDigit = false) : c ≠ d := ne_of_isDigit digit h
  by_cases negative : n < 0
  · rw [intText_of_neg negative, shape]
    simp [readSimple, words, List.isPrefixOf, other]
  · rw [intText_of_nonneg (by omega), shape]
    simp [readSimple, words, List.isPrefixOf, other]

theorem readValue_simple {c : Char} (first : c = '-' ∨ c.isDigit = true) (fuel : Nat) (s : List Char) :
    readValue (fuel + 1) (c :: s) = readSimple (c :: s) := by
  have other : c ≠ '"' ∧ c ≠ '[' ∧ c ≠ '\x7b' := by
    rcases first with rfl | digit
    · decide
    · exact ⟨(ne_of_isDigit digit rfl).symm, (ne_of_isDigit digit rfl).symm, (ne_of_isDigit digit rfl).symm⟩
  rw [readValue.eq_def]
  simp [other]

theorem intText_eq_cons (n : Int) : ∃ c text, intText n = c :: text ∧ (c = '-' ∨ c.isDigit = true) := by
  by_cases negative : n < 0
  · exact ⟨_, _, intText_of_neg negative, .inl rfl⟩
  · obtain ⟨c, digits, shape, digit⟩ := Numeral.toDigits_eq_cons n.natAbs
    exact ⟨c, digits, (intText_of_nonneg (by omega)).trans shape, .inr digit⟩

theorem reads_int {n : Int} (writable : (Number.int n).isWritable = true) : Reads (.int n) := by
  obtain ⟨c, text, shape, first⟩ := intText_eq_cons n
  have opening : Opening c := by
    rcases first with rfl | digit
    · decide
    · exact opening_of_isDigit digit
  refine .of_succ shape opening fun fuel rest closing _ => ?_
  have whole := readNumber_intText writable closing
  rw [← readSimple_intText, shape] at whole
  rw [readValue_simple first]
  exact whole

/-! ### Lists and objects -/

theorem readItems_write {item : Value} {items before : List Value} {fuel : Nat}
    (reads : ∀ v ∈ item :: items, Reads v) (enough : 2 * (write item ++ writeItems items).length < fuel) :
    readItems fuel before (write item ++ (writeItems items ++ ']' :: rest)) =
      .ok (.list (before.reverse ++ item :: items), rest) := by
  induction items generalizing item before fuel with
  | nil =>
    obtain ⟨fuel, rfl⟩ : ∃ less, fuel = less + 1 := ⟨fuel - 1, by omega⟩
    rw [List.length_append] at enough
    have first := (reads item (by simp)).reads fuel (writeItems [] ++ ']' :: rest) (closing_cons (by decide)) (by omega)
    rw [readItems, first]
    simp [writeItems, skipBlank_cons (c := ']') rfl]
  | cons next items ih =>
    obtain ⟨fuel, rfl⟩ : ∃ less, fuel = less + 1 := ⟨fuel - 1, by omega⟩
    rw [List.forall_mem_cons] at reads
    simp only [writeItems, List.length_append, List.length_cons] at enough
    have first := reads.1.reads fuel (writeItems (next :: items) ++ ']' :: rest) (closing_cons (by decide)) (by omega)
    have skipped := (reads.2 next List.mem_cons_self).skipBlank_append (writeItems items ++ ']' :: rest)
    have later : readItems fuel (item :: before) (write next ++ (writeItems items ++ ']' :: rest)) = _ :=
      ih reads.2 (by rw [List.length_append]; omega)
    rw [readItems, first]
    simp [writeItems, skipBlank_cons (c := ',') rfl, skipBlank_space, skipped, later]

theorem readValue_list {c : Char} (opening : Opening c) (fuel : Nat) (s : List Char) :
    readValue (fuel + 1) ('[' :: c :: s) = readItems fuel [] (c :: s) := by
  rw [readValue.eq_def]
  simp [skipBlank_cons opening.1, opening.2.1]

theorem reads_list {items : List Value} (reads : ∀ v ∈ items, Reads v) : Reads (.list items) := by
  cases items with
  | nil => exact .of_succ rfl (by decide) fun _ _ _ _ => rfl
  | cons item items =>
    have whole : write (.list (item :: items)) = '[' :: (write item ++ (writeItems items ++ [']'])) := by simp [write]
    refine .of_succ whole (by decide) fun fuel rest closing enough => ?_
    obtain ⟨c, text, shape, opening⟩ := (reads item List.mem_cons_self).opens
    simp only [List.length_append, List.length_singleton] at enough
    have inside : readItems fuel [] (write item ++ (writeItems items ++ ']' :: rest)) =
        .ok (.list (item :: items), rest) :=
      readItems_write reads (by rw [List.length_append]; omega)
    rw [shape] at inside
    rw [List.append_assoc, List.append_assoc, List.singleton_append, shape, List.cons_append, readValue_list opening]
    exact inside

/-- The first of some fields. The mark behind it tells whether others follow. -/
theorem readFields_cons {name : String} {v : Value} {before : Fields} {fuel : Nat} {mark : Char}
    (added : before.put (.string name) v = before ++ [(.string name, v)]) (reads : Reads v)
    (ends : mark = '\x7d' ∨ mark = ',') (enough : 2 * (write v).length ≤ fuel) :
    readFields (fuel + 1) before (writeString name.toList ++ ':' :: ' ' :: (write v ++ mark :: rest)) =
      if mark = '\x7d' then .ok (.object (before ++ [(.string name, v)]), rest)
      else readFields fuel (before ++ [(.string name, v)]) (skipBlank rest) := by
  have read := readString_writeString name.toList (':' :: ' ' :: (write v ++ mark :: rest))
  have value := reads.reads fuel (mark :: rest) (closing_cons (ends.elim (.inr ∘ .inr) .inl)) enough
  obtain ⟨tail, shape⟩ : ∃ tail, writeString name.toList ++ ':' :: ' ' :: (write v ++ mark :: rest) = '"' :: tail :=
    ⟨_, rfl⟩
  rw [String.ofList_toList] at read
  rw [shape] at read ⊢
  rw [readFields.eq_def]
  rcases ends with rfl | rfl
  · simp [read, skipBlank_cons (c := ':') rfl, skipBlank_space, reads.skipBlank_append, value, added,
      skipBlank_cons (c := '\x7d') rfl]
  · simp [read, skipBlank_cons (c := ':') rfl, skipBlank_space, reads.skipBlank_append, value, added,
      skipBlank_cons (c := ',') rfl]

theorem readFields_write {field : Scalar × Value} {fields before : Fields} {fuel : Nat}
    (named : (before ++ field :: fields).IsNamed) (distinct : ((before ++ field :: fields).map Prod.fst).Nodup)
    (reads : ∀ f ∈ field :: fields, Reads f.2)
    (enough : 2 * (writeKey field.1 ++ ':' :: ' ' :: (write field.2 ++ writeFields fields)).length < fuel) :
    readFields fuel before
        (writeKey field.1 ++ ':' :: ' ' :: (write field.2 ++ (writeFields fields ++ '\x7d' :: rest))) =
      .ok (.object (before ++ field :: fields), rest) := by
  induction fields generalizing field before fuel with
  | nil =>
    obtain ⟨fuel, rfl⟩ : ∃ less, fuel = less + 1 := ⟨fuel - 1, by omega⟩
    obtain ⟨key, v⟩ := field
    obtain ⟨name, rfl⟩ : ∃ name, key = .string name := named (key, v) (by simp)
    have value : Reads v := reads _ List.mem_cons_self
    simp only [List.length_append, List.length_cons] at enough
    have room : 2 * (write v).length ≤ fuel := by omega
    exact readFields_cons (Fields.put_of_distinct named distinct) value (.inl rfl) room
  | cons next fields ih =>
    obtain ⟨fuel, rfl⟩ : ∃ less, fuel = less + 1 := ⟨fuel - 1, by omega⟩
    obtain ⟨key, v⟩ := field
    obtain ⟨name, rfl⟩ : ∃ name, key = .string name := named (key, v) (by simp)
    have added := Fields.put_of_distinct named distinct
    rw [List.append_cons] at named distinct
    rw [List.forall_mem_cons] at reads
    have value : Reads v := reads.1
    simp only [writeFields, List.length_append, List.length_cons] at enough
    have divided : writeFields (next :: fields) ++ '\x7d' :: rest = ',' :: ' ' ::
        (writeKey next.1 ++ ':' :: ' ' :: (write next.2 ++ (writeFields fields ++ '\x7d' :: rest))) := by
      simp [writeFields]
    rw [divided]
    have room : 2 * (write v).length ≤ fuel := by omega
    have skipped (text : List Char) : skipBlank (writeKey next.1 ++ text) = writeKey next.1 ++ text := by
      obtain ⟨other, same⟩ := named next (by simp)
      rw [same]
      exact skipBlank_cons rfl _
    refine (readFields_cons added value (.inr rfl) room).trans ?_
    rw [if_neg (by decide), skipBlank_space]
    have roomBehind : 2 * (writeKey next.1 ++ ':' :: ' ' :: (write next.2 ++ writeFields fields)).length < fuel := by
      simp only [List.length_append, List.length_cons]
      omega
    have later := ih named distinct reads.2 roomBehind
    rw [← List.append_cons] at later
    rw [skipped]
    exact later

theorem readValue_object (fuel : Nat) (s : List Char) :
    readValue (fuel + 1) ('\x7b' :: '"' :: s) = readFields fuel [] ('"' :: s) := by
  rw [readValue.eq_def]
  rfl

theorem reads_object {fields : Fields} (named : fields.IsNamed) (distinct : (fields.map Prod.fst).Nodup)
    (reads : ∀ field ∈ fields, Reads field.2) : Reads (.object fields) := by
  cases fields with
  | nil => exact .of_succ rfl (by decide) fun _ _ _ _ => rfl
  | cons field fields =>
    obtain ⟨key, v⟩ := field
    obtain ⟨name, rfl⟩ : ∃ name, key = .string name := named (key, v) (by simp)
    have whole : write (.object ((.string name, v) :: fields)) =
      '\x7b' :: (writeString name.toList ++ ':' :: ' ' :: (write v ++ (writeFields fields ++ ['\x7d']))) := by
      simp [write, writeKey]
    refine .of_succ whole (by decide) fun fuel rest closing enough => ?_
    simp only [List.length_append, List.length_cons, List.length_nil] at enough
    simp only [List.cons_append, List.append_assoc, List.nil_append]
    refine (readValue_object fuel _).trans (readFields_write named distinct reads ?_)
    simp only [List.length_append, List.length_cons, writeKey]
    omega

/-! ### What can be written -/

theorem itemObstacle?_eq_none {items : List Value} (free : ∀ item ∈ items, obstacle? item = none) :
    itemObstacle? items = none := by
  induction items with
  | nil => rfl
  | cons item items ih =>
    rw [List.forall_mem_cons] at free
    simp [itemObstacle?, free.1, ih free.2]

theorem fieldObstacle?_eq_none {fields : Fields} (named : fields.IsNamed)
    (free : ∀ field ∈ fields, obstacle? field.2 = none) : fieldObstacle? fields = none := by
  induction fields with
  | nil => rfl
  | cons field fields ih =>
    obtain ⟨key, v⟩ := field
    obtain ⟨name, rfl⟩ : ∃ name, key = .string name := named (key, v) List.mem_cons_self
    rw [List.forall_mem_cons] at free
    have later := ih (fun field member => named field (List.mem_cons_of_mem _ member)) free.2
    simp [fieldObstacle?, scalarObstacle?, free.1, later]

theorem Lossless.obstacle?_eq_none (lossless : Lossless v) : obstacle? v = none := by
  induction lossless with
  | null => rfl
  | bool _ => rfl
  | int writable => rw [Value.int, Value.number, obstacle?, scalarObstacle?, if_pos writable]
  | string _ => rfl
  | list _ ih => exact itemObstacle?_eq_none ih
  | object named _ _ ih => exact fieldObstacle?_eq_none named ih

/-! ### Main statements -/

theorem Lossless.reads (lossless : Lossless v) : Reads v := by
  induction lossless with
  | null => exact reads_null
  | bool b => exact reads_bool b
  | int writable => exact reads_int writable
  | string s => exact reads_string s
  | list _ ih => exact reads_list ih
  | object named distinct _ ih => exact reads_object named distinct ih

/-- A value is read back from its text. -/
theorem read_write (lossless : Lossless v) : read (write v) = .ok v := by
  obtain ⟨⟨c, text, shape, opening⟩, reads⟩ := lossless.reads
  have whole := reads (2 * (write v).length + 2) [] closing_nil (by omega)
  have front : (write v).head? ≠ some '\ufeff' := by
    rw [shape]
    intro mark
    exact opening.2.2 (Option.some.inj mark)
  have start : skipBlank (write v) = write v ++ [] := by
    rw [shape, List.append_nil]
    exact skipBlank_cons opening.1 _
  unfold read
  rw [if_neg front, start, whole]
  rfl

end CompilerAdapter.Json
