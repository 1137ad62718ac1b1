import CompilerAdapter.Proofs.Diagnostic.Documents
import CompilerAdapter.Proofs.Diagnostic.Flattening
import CompilerAdapter.Proofs.Json.RoundTrip
import CompilerAdapter.Proofs.Text.Position

/-!
# Reports through JSON text

A report made from records is written as JSON text. It is read back if the codes of its records are positive, and
otherwise one of the codes that are not is named: `read_text_toValue`.
-/

namespace CompilerAdapter

/-- All numbers of a diagnostic can be written. -/
def Diagnostic.IsWritable (d : Diagnostic) : Prop :=
  d.code.isWritable = true ∧ d.line.isWritable = true ∧ d.column.isWritable = true

/-- The numbers of a record can be written: its code, and those of the lines and characters of its file. No text that
fits into a memory is too long for that. -/
def Record.IsWritable (r : Record) : Prop :=
  (Number.int r.code).isWritable = true ∧
    ∀ file, r.file = some file → (Number.int (file.text.length + 1)).isWritable = true

/-! ### Documents of written numbers -/

theorem Diagnostic.lossless_toValue {d : Diagnostic} (counted : d.IsCounted) (writable : d.IsWritable) :
    Json.Lossless d.toValue := by
  obtain ⟨⟨code, codeEq⟩, ⟨line, lineEq, _⟩, ⟨column, columnEq, _⟩⟩ := counted
  obtain ⟨codeFits, lineFits, columnFits⟩ := writable
  rw [codeEq] at codeFits
  rw [lineEq] at lineFits
  rw [columnEq] at columnFits
  unfold toValue
  rw [codeEq, lineEq, columnEq]
  refine .object ?_ ?_ ?_
  · simp [Fields.IsNamed]
  · simp
  · simp only [List.forall_mem_cons, List.not_mem_nil, false_implies, implies_true, and_true]
    exact ⟨.int codeFits, .string _, .string _, .int lineFits, .int columnFits⟩

theorem Report.lossless_toValue {r : Report} (counted : ∀ d ∈ r.all, d.IsCounted)
    (writable : ∀ d ∈ r.all, d.IsWritable) : Json.Lossless r.toValue := by
  have list (diagnostics : List Diagnostic) (inside : ∀ d ∈ diagnostics, d ∈ r.all) :
      Json.Lossless (.list (diagnostics.map Diagnostic.toValue)) := by
    refine .list fun item member => ?_
    obtain ⟨d, here, rfl⟩ := List.mem_map.mp member
    exact Diagnostic.lossless_toValue (counted d (inside d here)) (writable d (inside d here))
  unfold toValue
  refine .object ?_ ?_ ?_
  · simp [Fields.IsNamed]
  · simp
  · simp only [List.forall_mem_cons, List.not_mem_nil, false_implies, implies_true, and_true]
    exact ⟨list _ fun d => List.mem_append_left _, list _ fun d => List.mem_append_right _⟩

/-! ### Diagnostics at positions -/

theorem Record.toDiagnostic_isCounted (r : Record) (newLine : String) {file : SourceFile} {position : Position}
    (found : SourceFile.resolve file r.start = .ok position) : (r.toDiagnostic newLine file position).IsCounted := by
  have bounds := positionOf_bounds found
  exact ⟨⟨_, rfl⟩, ⟨_, rfl, by omega⟩, ⟨_, rfl, by omega⟩⟩

theorem Record.toDiagnostic_isWritable {r : Record} (writable : r.IsWritable) (newLine : String) {file : SourceFile}
    (attached : r.file = some file) {position : Position} (found : SourceFile.resolve file r.start = .ok position) :
    (r.toDiagnostic newLine file position).IsWritable := by
  have bounds := positionOf_bounds found
  rw [String.length_toList] at bounds
  have largest := writable.2 file attached
  refine ⟨writable.1, ?_, ?_⟩
  · exact Number.isWritable_of_le largest (by omega) (by omega)
  · exact Number.isWritable_of_le largest (by omega) (by omega)

/-! ### Reports of records -/

section Reports

variable {newLine : String} {syntactic semantic : List Record} {r : Report}

/-- The diagnostics of a report come from its records. -/
theorem Report.mem_all_of_create (made : (Report.create SourceFile.resolve newLine syntactic semantic).outcome = .ok r)
    {d : Diagnostic} (member : d ∈ r.all) : ∃ record ∈ syntactic ++ semantic, ∃ file position, record.file = some file ∧
      SourceFile.resolve file record.start = .ok position ∧ d = record.toDiagnostic newLine file position := by
  have phases := create_eq_ok made
  rcases List.mem_append.mp member with first | second
  · obtain ⟨record, here, described⟩ := Record.mem_of_flatten phases.1 first
    exact ⟨record, List.mem_append_left _ here, described⟩
  · obtain ⟨record, here, described⟩ := Record.mem_of_flatten phases.2 second
    exact ⟨record, List.mem_append_right _ here, described⟩

theorem Report.exists_code_of_create
    (made : (Report.create SourceFile.resolve newLine syntactic semantic).outcome = .ok r) {record : Record}
    (member : record ∈ syntactic ++ semantic) {file : SourceFile} (attached : record.file = some file) :
    ∃ d ∈ r.all, d.code = .int record.code := by
  have phases := create_eq_ok made
  rcases List.mem_append.mp member with first | second
  · obtain ⟨position, _, here⟩ := Record.toDiagnostic_mem_of_flatten phases.1 first attached
    exact ⟨_, List.mem_append_left _ here, rfl⟩
  · obtain ⟨position, _, here⟩ := Record.toDiagnostic_mem_of_flatten phases.2 second attached
    exact ⟨_, List.mem_append_right _ here, rfl⟩

theorem Report.isCounted_of_create
    (made : (Report.create SourceFile.resolve newLine syntactic semantic).outcome = .ok r) :
    ∀ d ∈ r.all, d.IsCounted := by
  intro d member
  obtain ⟨record, _, file, position, _, found, rfl⟩ := mem_all_of_create made member
  exact record.toDiagnostic_isCounted newLine found

theorem Report.isWritable_of_create
    (made : (Report.create SourceFile.resolve newLine syntactic semantic).outcome = .ok r)
    (writable : ∀ record ∈ syntactic ++ semantic, record.IsWritable) : ∀ d ∈ r.all, d.IsWritable := by
  intro d member
  obtain ⟨record, here, file, position, attached, found, rfl⟩ := mem_all_of_create made member
  exact Record.toDiagnostic_isWritable (writable record here) newLine attached found

/-- A report is read back from its JSON text if the records with a file have positive codes, and else refused for the
code of one of its diagnostics. -/
theorem Report.read_text_toValue
    (made : (Report.create SourceFile.resolve newLine syntactic semantic).outcome = .ok r)
    (writable : ∀ record ∈ syntactic ++ semantic, record.IsWritable) :
    Json.obstacle? r.toValue = none ∧ ∃ v, Json.read (Json.text r.toValue).toList = .ok v ∧
      ((∀ record ∈ syntactic ++ semantic, record.file ≠ none → 1 ≤ record.code) → Report.read v = .ok r) ∧
      (¬ (∀ record ∈ syntactic ++ semantic, record.file ≠ none → 1 ≤ record.code) →
        ∃ e, Report.read v = .error e ∧ ∃ name diagnostics, ∃ index : Nat, ∃ d : Diagnostic,
          (name, diagnostics) ∈ r.lists ∧ diagnostics[index]? = some d ∧ d.code.less (.int 1) = true ∧
          e.fields = [name ++ "." ++ toString index ++ ".code"]) := by
  have counted := isCounted_of_create made
  have lossless := lossless_toValue counted (isWritable_of_create made writable)
  have text : Json.read (Json.text r.toValue).toList = .ok r.toValue := by
    rw [Json.text, String.toList_ofList]
    exact Json.read_write lossless
  refine ⟨lossless.obstacle?_eq_none, r.toValue, text, ?_, ?_⟩
  · intro positive
    refine read_toValue counted fun d member below => ?_
    obtain ⟨record, here, file, position, attached, _, rfl⟩ := mem_all_of_create made member
    have atLeast := positive record here (by simp [attached])
    have less : record.code < 1 := Number.less_int.mp below
    omega
  · intro refused
    simp only [Classical.not_forall] at refused
    obtain ⟨record, here, attached, small⟩ := refused
    obtain ⟨file, attached⟩ := Option.ne_none_iff_exists'.mp attached
    obtain ⟨d, member, code⟩ := exists_code_of_create made here attached
    have below : d.code.less (.int 1) = true := by
      rw [code, Number.less_int]
      omega
    obtain ⟨name, diagnostics, index, d, listed, placed, less, reading⟩ := read_toValue_eq_error counted member below
    exact ⟨_, reading, name, diagnostics, index, d, listed, placed, less, fields_codeViolation name index d.code⟩

theorem Report.read_text_toValue_chain : ∃ (attached detached : Record) (r : Report),
    attached = ⟨2304, .chain "no \"name\"" 1 .error [.text "é\t😀"], some ⟨"src/😀.ts", "let a\r\nlet b"⟩, 9, 0, .error⟩ ∧
    detached = ⟨0, .absent, none, 0, 0, .error⟩ ∧
    (Report.create SourceFile.resolve "\n" [attached] [detached]).outcome = .ok r ∧
    (∀ record ∈ [attached] ++ [detached], record.IsWritable) ∧
    ∃ v, Json.read (Json.text r.toValue).toList = .ok v ∧ Report.read v = .ok r := by
  let file : SourceFile := ⟨"src/😀.ts", "let a\r\nlet b"⟩
  let attached : Record := ⟨2304, .chain "no \"name\"" 1 .error [.text "é\t😀"], some file, 9, 0, .error⟩
  let detached : Record := ⟨0, .absent, none, 0, 0, .error⟩
  have few : 4 ≤ Numeral.maxDigits := by decide
  have code : (Number.int 2304).isWritable = true := Number.isWritable_of_lt (by decide) few
  have zero : (Number.int 0).isWritable = true := Number.isWritable_of_lt (by decide) few
  have size : (Number.int (file.text.length + 1)).isWritable = true := Number.isWritable_of_lt (by decide) few
  have writable : ∀ record ∈ [attached] ++ [detached], record.IsWritable := by
    simp only [List.forall_mem_append, List.forall_mem_singleton]
    refine ⟨⟨code, fun other same => ?_⟩, zero, nofun⟩
    obtain rfl : file = other := Option.some.inj same
    exact size
  have found : SourceFile.resolve ⟨"src/😀.ts", "let a\r\nlet b"⟩ 9 = .ok ⟨1, 2⟩ := rfl
  have first : Record.flatten SourceFile.resolve "\n" [attached] =
      ⟨[], .ok [attached.toDiagnostic "\n" file ⟨1, 2⟩]⟩ :=
    Record.flatten_of_some (Record.diagnose_eq_some_iff.mpr ⟨file, ⟨1, 2⟩, rfl, found, rfl⟩)
  have second : Record.flatten SourceFile.resolve "\n" [detached] = ⟨[0], .ok []⟩ :=
    Record.flatten_of_none (Record.diagnose_eq_none_iff.mpr ⟨rfl, zero⟩)
  have made : (Report.create SourceFile.resolve "\n" [attached] [detached]).outcome =
      .ok ⟨[attached.toDiagnostic "\n" file ⟨1, 2⟩], []⟩ := by
    rw [Report.create, first, second]
    rfl
  obtain ⟨_, v, read, admitted, _⟩ := Report.read_text_toValue made writable
  refine ⟨attached, detached, _, rfl, rfl, made, writable, v, read, admitted ?_⟩
  simp [attached, detached]

end Reports

end CompilerAdapter
