import CompilerAdapter.Proofs.Json.LongNumerals
import CompilerAdapter.Proofs.Number.Value
import CompilerAdapter.Proofs.SourceMap.LastSource

/-!
# What preparing a source map comes to

An object is prepared unless its sources are a number or true, and another text is refused for its source unless a
numeral in it is too long: `prepare_outcome`.
-/

namespace CompilerAdapter

/-- Truth, and numbers other than zero: they count as present and have no length. -/
inductive Value.IsCountless : Value → Prop where
  | truth : IsCountless (.scalar (.bool true))
  | number {n : Number} (nonzero : n.value? ≠ some 0) : IsCountless (.number n)

theorem Value.IsCountless.isPresent {v : Value} (countless : v.IsCountless) : v.isPresent = true := by
  cases countless with
  | truth => rfl
  | @number n nonzero =>
    rw [ne_eq, ← Number.equal_zero_iff] at nonzero
    simpa [Value.number, Value.isPresent] using nonzero

theorem Value.IsCountless.size?_eq_none {v : Value} (countless : v.IsCountless) : v.size? = none := by
  cases countless with
  | truth => rfl
  | number => rfl

theorem Value.isCountless_of_size? {v : Value} (content : Json.Content v) (present : v.isPresent = true)
    (endless : v.size? = none) : v.IsCountless := by
  cases content with
  | null => exact absurd present (by simp [null, isPresent])
  | bool b =>
    cases b with
    | false => exact absurd present (by simp [isPresent])
    | true => exact .truth
  | @number n _ =>
    apply IsCountless.number
    rw [ne_eq, ← Number.equal_zero_iff]
    simpa [number, isPresent] using present
  | string s => exact absurd endless (by simp [string, size?])
  | list => exact absurd endless (by simp [size?])
  | object => exact absurd endless (by simp [size?])

namespace SourceMap

/-- The text of an object whose sources have no length. -/
def HasCountlessSources (text : List Char) : Prop :=
  ∃ (fields : Fields) (v : Value), Json.read text = .ok (.object fields) ∧
    fields.get? (.string "sources") = some v ∧ v.IsCountless

/-- A numeral in a text keeps it from being read. -/
def HasLongNumeral (text : List Char) : Prop := ∃ count, Json.read text = .error (.numeralTooLong count)

variable {text content path : String} {fields : Fields}

theorem sourceCount_of_countless {v : Value} (given : fields.get? (.string "sources") = some v)
    (countless : v.IsCountless) :
    sourceCount fields = .error (.sourcesWithoutLength v.typeName) := by
  simp [sourceCount, given, Option.filter, countless.isPresent, countless.size?_eq_none]

theorem exists_sourceCount (content : Json.Content (.object fields))
    (counted : ∀ v, fields.get? (.string "sources") = some v → ¬ v.IsCountless) :
    ∃ count, sourceCount fields = .ok count := by
  obtain ⟨named, distinct, all⟩ := content.fields
  cases given : fields.get? (.string "sources") with
  | none => exact ⟨0, by simp [sourceCount, given]⟩
  | some v =>
    have inner : Json.Content v := all _ ((Fields.get?_eq_some_iff named distinct).mp given)
    cases present : v.isPresent with
    | false => exact ⟨0, by simp [sourceCount, given, Option.filter, present]⟩
    | true =>
      cases size : v.size? with
      | none => exact absurd (Value.isCountless_of_size? inner present size) (counted v given)
      | some count => exact ⟨count, by simp [sourceCount, given, Option.filter, present, size]⟩

/-! ### Each way to fail -/

theorem prepare_of_countless (countless : HasCountlessSources text.toList) (content path : String) :
    ∃ typeName, prepare text content path = .error (.sourcesWithoutLength typeName) := by
  obtain ⟨fields, v, parsed, given, countless⟩ := countless
  refine ⟨v.typeName, ?_⟩
  rw [prepare_of_object parsed, sourceCount_of_countless given countless]
  rfl

theorem exists_prepare_of_object (parsed : Json.read text.toList = .ok (.object fields))
    (counted : ¬ HasCountlessSources text.toList) (content path : String) :
    ∃ m, prepare text content path = .ok m := by
  have each : ∀ v, fields.get? (.string "sources") = some v → ¬ v.IsCountless :=
    fun v given countless => counted ⟨fields, v, parsed, given, countless⟩
  obtain ⟨count, found⟩ := exists_sourceCount (Json.content_of_read parsed) each
  exact ⟨_, by rw [prepare_of_object parsed, found]; rfl⟩

theorem prepare_of_long_numeral (long : HasLongNumeral text.toList) (content path : String) :
    ∃ count, prepare text content path = .error (.numeralTooLong count) := by
  obtain ⟨count, failed⟩ := long
  exact ⟨count, by rw [prepare, failed]⟩

theorem prepare_of_no_object (other : ∀ fields, Json.read text.toList ≠ .ok (.object fields))
    (short : ¬ HasLongNumeral text.toList) (content path : String) :
    ∃ e, prepare text content path = .error e ∧ e.source? = some path := by
  unfold prepare
  split
  · exact ⟨_, rfl, rfl⟩
  · rename_i count failed
    exact absurd ⟨count, failed⟩ short
  · rename_i fields parsed
    exact absurd parsed (other fields)
  · exact ⟨_, rfl, rfl⟩

/-- The map is prepared, or refused for its source. -/
def IsSettled (text content path : String) : Prop :=
  (∃ m, prepare text content path = .ok m) ∨ ∃ e, prepare text content path = .error e ∧ e.source? = some path

theorem not_isSettled {e : Error} (failed : prepare text content path = .error e) (other : e.source? = none) :
    ¬ IsSettled text content path := by
  rintro (⟨_, made⟩ | ⟨e', failed', source⟩)
  · cases made.symm.trans failed
  · obtain rfl := Except.error.inj (failed'.symm.trans failed)
    rw [other] at source
    cases source

theorem isSettled_iff (content path : String) : IsSettled text content path ↔
    ¬ HasCountlessSources text.toList ∧ ¬ HasLongNumeral text.toList := by
  constructor
  · intro settled
    constructor
    · intro countless
      obtain ⟨typeName, failed⟩ := prepare_of_countless countless content path
      exact not_isSettled failed rfl settled
    · intro long
      obtain ⟨count, failed⟩ := prepare_of_long_numeral long content path
      exact not_isSettled failed rfl settled
  · intro usual
    obtain ⟨counted, short⟩ := usual
    by_cases object : ∃ fields, Json.read text.toList = .ok (.object fields)
    · obtain ⟨fields, parsed⟩ := object
      exact .inl (exists_prepare_of_object parsed counted content path)
    · exact .inr (prepare_of_no_object (not_exists.mp object) short content path)

theorem exists_prepare_iff (content path : String) : (∃ m, prepare text content path = .ok m) ↔
    (∃ fields, Json.read text.toList = .ok (.object fields)) ∧ ¬ HasCountlessSources text.toList := by
  constructor
  · intro prepared
    obtain ⟨m, made⟩ := prepared
    refine ⟨exists_fields_of_prepare made, fun countless => ?_⟩
    obtain ⟨typeName, failed⟩ := prepare_of_countless countless content path
    cases made.symm.trans failed
  · intro usual
    obtain ⟨⟨fields, parsed⟩, counted⟩ := usual
    exact exists_prepare_of_object parsed counted content path

/-- A map is prepared, or refused for its source, unless it counts no sources or holds too long a numeral. A text is
prepared exactly if it holds an object that counts its sources. -/
theorem prepare_outcome (text content path : String) :
    (IsSettled text content path ↔ ¬ HasCountlessSources text.toList ∧ ¬ HasLongNumeral text.toList) ∧
    ((∃ m, prepare text content path = .ok m) ↔
      (∃ fields, Json.read text.toList = .ok (.object fields)) ∧ ¬ HasCountlessSources text.toList) ∧
    (HasLongNumeral text.toList → ∃ count, Json.LongRun text.toList count) := by
  refine ⟨isSettled_iff content path, exists_prepare_iff content path, fun long => ?_⟩
  obtain ⟨count, failed⟩ := long
  exact ⟨count, Json.longRun_of_read failed⟩

/-- A number as the sources of an object is neither replaced nor refused for its source. -/
theorem prepare_number_as_sources : ∃ text fields e, text = "\x7b\"sources\": 1\x7d" ∧
    Json.read text.toList = .ok (.object fields) ∧ prepare text "let x" "p" = .error e ∧ e.source? = none ∧
    e.message = "object of type 'int' has no len()" ∧ ¬ IsSettled text "let x" "p" := by
  have run : (error? (prepare "\x7b\"sources\": 1\x7d" "let x" "p")).map (fun e => (e.source?, e.message)) =
      some (none, "object of type 'int' has no len()") := by decide +kernel
  have read : ((Json.read "\x7b\"sources\": 1\x7d".toList).toOption.bind (·.field? "sources")).map Json.text =
      some "1" := by decide +kernel
  obtain ⟨e, found, shown⟩ := Option.map_eq_some_iff.mp run
  obtain ⟨other, message⟩ := Prod.mk.inj shown
  obtain ⟨_, given, _⟩ := Option.map_eq_some_iff.mp read
  obtain ⟨v, parsed, given⟩ := Option.bind_eq_some_iff.mp given
  obtain ⟨fields, rfl⟩ := exists_fields_of_field? given
  have failed := eq_error_of_error? found
  exact ⟨_, fields, e, rfl, eq_ok_of_toOption parsed, failed, other, message, not_isSettled failed other⟩

end SourceMap

end CompilerAdapter
