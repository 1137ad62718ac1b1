import CompilerAdapter.Diagnostic.Reading
import CompilerAdapter.Proofs.Document.Fields
import CompilerAdapter.Proofs.Number.Numeral
import CompilerAdapter.Proofs.Outcome
import CompilerAdapter.Proofs.Schema.Violations

/-!
# The documents of diagnostics and reports

A diagnostic with a place counted from one breaks the schema only by its code, and is otherwise read back from its
document. The same goes for the diagnostics of a report, each in its list and at its index.
-/

namespace CompilerAdapter

/-- A diagnostic with a whole number for its code, and a place counted from one in whole numbers. -/
structure Diagnostic.IsCounted (d : Diagnostic) : Prop where
  code : ∃ n : Int, d.code = .int n
  line : ∃ n : Int, d.line = .int n ∧ 1 ≤ n
  column : ∃ n : Int, d.column = .int n ∧ 1 ≤ n

/-- The lists of a report by name. -/
def Report.lists (r : Report) : List (String × List Diagnostic) :=
  [("syntacticErrors", r.syntactic), ("semanticErrors", r.semantic)]

section Checking

variable {subject : Subject} {names : List String} {schema : Schema} {fields : Fields}

theorem no_field_missing (present : ∀ name ∈ names, Fields.has fields (.string name) = true) :
    names.filter (fun name => !Fields.has fields (.string name)) = [] := by
  rw [List.filter_eq_nil_iff]
  intro name member
  rw [present name member]
  decide

theorem checkDocument_eq_ok (present : ∀ name ∈ names, Fields.has fields (.string name) = true)
    (follows : schema.violations [] (Value.object fields) = []) :
    checkDocument subject names schema (.object fields) = .ok () := by
  have reported : schema.violation? (Value.object fields) = none := Violation.best?_eq_none.mpr follows
  unfold checkDocument
  simp only [no_field_missing present, reported]

theorem checkDocument_eq_error (present : ∀ name ∈ names, Fields.has fields (.string name) = true)
    (broken : schema.violations [] (Value.object fields) ≠ []) :
    ∃ v, schema.violation? (Value.object fields) = some v ∧
      checkDocument subject names schema (.object fields) = .error (.invalid subject v) := by
  cases reported : schema.violation? (Value.object fields) with
  | none => exact absurd (Violation.best?_eq_none.mp reported) broken
  | some v =>
    refine ⟨v, rfl, ?_⟩
    unfold checkDocument
    simp only [no_field_missing present, reported]

end Checking

namespace Diagnostic

variable {d : Diagnostic} {path : List Scalar}

theorem violations_positive (path : List Scalar) {n : Number} (whole : n.isIntegral = true) :
    positiveSchema.violations path (Value.number n) = if n.less (.int 1) then [⟨path, .below n 1, false⟩] else [] := by
  simp [positiveSchema, Schema.violations, Rule.allViolations, Rule.violations, Value.number, Layered.layer,
    Kind.admits, whole]

theorem violations_text (path : List Scalar) (s : String) : textSchema.violations path (Value.string s) = [] := by
  simp [textSchema, Schema.violations, Rule.allViolations, Value.string, Layered.layer, Kind.admits]

theorem violations_toValue (path : List Scalar) (d : Diagnostic) : schema.violations path d.toValue =
    positiveSchema.violations (path ++ [.string "code"]) (Value.number d.code) ++
    positiveSchema.violations (path ++ [.string "line"]) (Value.number d.line) ++
    positiveSchema.violations (path ++ [.string "column"]) (Value.number d.column) := by
  simp [schema, Schema.violations, Rule.allViolations, Rule.violations, Rule.fieldViolations, Layered.layer,
    Kind.admits, toValue, fieldNames, Fields.has, violations_text]

theorem IsCounted.violations (counted : d.IsCounted) (path : List Scalar) : schema.violations path d.toValue =
    if d.code.less (.int 1) then [⟨path ++ [.string "code"], .below d.code 1, false⟩] else [] := by
  obtain ⟨⟨code, codeEq⟩, ⟨line, lineEq, firstLine⟩, ⟨column, columnEq, firstColumn⟩⟩ := counted
  have noLine : ¬ (Number.int line).less (.int 1) := by
    rw [Number.less_int]
    omega
  have noColumn : ¬ (Number.int column).less (.int 1) := by
    rw [Number.less_int]
    omega
  rw [violations_toValue, codeEq, lineEq, columnEq, violations_positive _ rfl, violations_positive _ rfl,
    violations_positive _ rfl, if_neg noLine, if_neg noColumn, List.append_nil, List.append_nil]

theorem ofValue_toValue (d : Diagnostic) : ofValue d.toValue = d := by
  simp [ofValue, toValue, Value.field?, Value.string, Value.number]

theorem read_toValue (counted : d.IsCounted) (positive : ¬ d.code.less (.int 1)) : read d.toValue = .ok d := by
  have checked : checkDocument .diagnostic fieldNames schema d.toValue = .ok () := by
    refine checkDocument_eq_ok (by simp [fieldNames, Fields.has]) ?_
    exact (counted.violations []).trans (if_neg positive)
  rw [read, checked, Except.map, ofValue_toValue]

theorem mapM_read_toValue {diagnostics : List Diagnostic} (counted : ∀ d ∈ diagnostics, d.IsCounted)
    (positive : ∀ d ∈ diagnostics, ¬ d.code.less (.int 1)) : (diagnostics.map toValue).mapM read = .ok diagnostics := by
  have each : ∀ v ∈ diagnostics.map toValue, read v = .ok (ofValue v) := by
    intro v member
    obtain ⟨d, here, rfl⟩ := List.mem_map.mp member
    rw [read_toValue (counted d here) (positive d here), ofValue_toValue]
  have undone : (diagnostics.map toValue).map ofValue = diagnostics := by
    simp [Function.comp_def, ofValue_toValue]
  rw [mapM_eq_ok each, undone]

end Diagnostic

namespace Report

variable {r : Report} {v : Violation}

theorem mem_all {d : Diagnostic} : d ∈ r.all ↔ ∃ name diagnostics, (name, diagnostics) ∈ r.lists ∧ d ∈ diagnostics := by
  simp only [all, lists, List.mem_append, List.mem_cons, List.not_mem_nil, or_false, Prod.mk.injEq]
  constructor
  · intro member
    rcases member with first | second
    · exact ⟨_, _, .inl ⟨rfl, rfl⟩, first⟩
    · exact ⟨_, _, .inr ⟨rfl, rfl⟩, second⟩
  · intro found
    obtain ⟨_, _, ⟨_, rfl⟩ | ⟨_, rfl⟩, member⟩ := found
    · exact .inl member
    · exact .inr member

theorem violations_toValue (r : Report) : schema.violations [] r.toValue = r.lists.flatMap fun list =>
    list.2.zipIdx.flatMap fun item =>
      Diagnostic.schema.violations [.string list.1, .number (.int item.2)] item.1.toValue := by
  simp [schema, Schema.violations, Rule.allViolations, Rule.violations, Rule.fieldViolations, Layered.layer,
    Kind.admits, toValue, fieldNames, Fields.has, lists, List.zipIdx_map, List.flatMap_map]

/-- What is wrong with the code at an index of a list. -/
def codeViolation (name : String) (index : Nat) (code : Number) : Violation :=
  ⟨[.string name, .number (.int index), .string "code"], .below code 1, false⟩

theorem fields_codeViolation (name : String) (index : Nat) (code : Number) :
    (codeViolation name index code).fields = [name ++ "." ++ toString index ++ ".code"] := by
  have shown : (Scalar.number (.int index)).plain = (toString index).toList := by
    rw [Nat.toString_eq_repr, Nat.toList_repr]
    rfl
  generalize toString index = digits at shown ⊢
  have named (text : String) : (Scalar.string text).plain = text.toList := rfl
  have place : Violation.joined "." ((codeViolation name index code).path.map Scalar.plain) =
      (name ++ "." ++ digits ++ ".code").toList := by
    simp [Violation.joined, codeViolation, shown, named, List.intercalate]
  have filled : (name ++ "." ++ digits ++ ".code").toList.isEmpty = false := by simp
  unfold Violation.fields
  rw [place]
  simp only [codeViolation, filled, Bool.false_eq_true, if_false, String.ofList_toList]

/-- If all places are counted from one, the schema is broken by codes below one only. -/
theorem mem_violations_toValue (counted : ∀ d ∈ r.all, d.IsCounted) :
    v ∈ schema.violations [] r.toValue ↔ ∃ name diagnostics index d, (name, diagnostics) ∈ r.lists ∧
      diagnostics[index]? = some d ∧ d.code.less (.int 1) = true ∧ v = codeViolation name index d.code := by
  have single {d : Diagnostic} (member : d ∈ r.all) (path : List Scalar) :
      v ∈ Diagnostic.schema.violations path d.toValue ↔
        d.code.less (.int 1) = true ∧ v = ⟨path ++ [.string "code"], .below d.code 1, false⟩ := by
    rw [(counted d member).violations]
    split
    · rename_i below
      simp [below]
    · rename_i enough
      simp [enough]
  rw [violations_toValue]
  constructor
  · intro found
    obtain ⟨⟨name, diagnostics⟩, listed, inside⟩ := List.mem_flatMap.mp found
    obtain ⟨⟨d, index⟩, placed, broken⟩ := List.mem_flatMap.mp inside
    have here : diagnostics[index]? = some d := List.mem_zipIdx_iff_getElem?.mp placed
    have member := mem_all.mpr ⟨name, diagnostics, listed, List.mem_of_getElem? here⟩
    obtain ⟨below, rfl⟩ := (single member _).mp broken
    exact ⟨name, diagnostics, index, d, listed, here, below, rfl⟩
  · intro found
    obtain ⟨name, diagnostics, index, d, listed, here, below, rfl⟩ := found
    have member := mem_all.mpr ⟨name, diagnostics, listed, List.mem_of_getElem? here⟩
    refine List.mem_flatMap.mpr ⟨(name, diagnostics), listed, ?_⟩
    refine List.mem_flatMap.mpr ⟨(d, index), List.mem_zipIdx_iff_getElem?.mpr here, ?_⟩
    exact (single member _).mpr ⟨below, rfl⟩

theorem read_toValue (counted : ∀ d ∈ r.all, d.IsCounted) (positive : ∀ d ∈ r.all, ¬ d.code.less (.int 1)) :
    read r.toValue = .ok r := by
  have follows : schema.violations [] r.toValue = [] := by
    rw [List.eq_nil_iff_forall_not_mem]
    intro v broken
    obtain ⟨name, diagnostics, index, d, listed, here, below, _⟩ := (mem_violations_toValue counted).mp broken
    exact positive d (mem_all.mpr ⟨name, diagnostics, listed, List.mem_of_getElem? here⟩) below
  have checked : checkDocument .report fieldNames schema r.toValue = .ok () :=
    checkDocument_eq_ok (by simp [fieldNames, Fields.has]) follows
  rw [all, List.forall_mem_append] at counted positive
  have first := Diagnostic.mapM_read_toValue counted.1 positive.1
  have second := Diagnostic.mapM_read_toValue counted.2 positive.2
  have entries : entries r.toValue "syntacticErrors" = r.syntactic.map Diagnostic.toValue ∧
      entries r.toValue "semanticErrors" = r.semantic.map Diagnostic.toValue := by
    simp [Report.entries, toValue, Value.field?]
  rw [read, checked, entries.1, entries.2, first, second]
  rfl

theorem read_toValue_eq_error (counted : ∀ d ∈ r.all, d.IsCounted) {d : Diagnostic} (member : d ∈ r.all)
    (below : d.code.less (.int 1) = true) : ∃ name diagnostics index d, (name, diagnostics) ∈ r.lists ∧
      diagnostics[index]? = some d ∧ d.code.less (.int 1) = true ∧
      read r.toValue = .error (.invalid .report (codeViolation name index d.code)) := by
  have broken : schema.violations [] r.toValue ≠ [] := by
    obtain ⟨name, diagnostics, listed, inside⟩ := mem_all.mp member
    obtain ⟨index, here⟩ := List.mem_iff_getElem?.mp inside
    exact List.ne_nil_of_mem
      ((mem_violations_toValue counted).mpr ⟨name, diagnostics, index, d, listed, here, below, rfl⟩)
  obtain ⟨v, reported, checked⟩ : ∃ v, schema.violation? r.toValue = some v ∧
      checkDocument .report fieldNames schema r.toValue = .error (.invalid .report v) :=
    checkDocument_eq_error (by simp [fieldNames, Fields.has]) broken
  obtain ⟨name, diagnostics, index, d, listed, here, below, rfl⟩ :=
    (mem_violations_toValue counted).mp (Violation.mem_of_best? reported)
  refine ⟨name, diagnostics, index, d, listed, here, below, ?_⟩
  rw [read, checked]
  rfl

end Report

end CompilerAdapter
