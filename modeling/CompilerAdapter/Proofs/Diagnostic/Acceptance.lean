import CompilerAdapter.Proofs.Diagnostic.Documents
import CompilerAdapter.Proofs.Diagnostic.Shape
import CompilerAdapter.Proofs.Document.Restriction
import CompilerAdapter.Proofs.Schema.Levels

/-!
# Which documents hold reports

The documents that are read as reports are those of the shape of a report, and nothing of the shape is lost:
`Report.read_iff_hasShape`. A document of another shape is refused as a whole, never for one of its diagnostics alone.
-/

namespace CompilerAdapter

def ReadingError.subject : ReadingError → Subject
  | .notAnObject subject _ | .missingFields subject _ | .invalid subject _ => subject

section Checking

variable {subject : Subject} {v : Value}

theorem subject_of_checkDocument {names : List String} {schema : Schema} {e : ReadingError}
    (failed : checkDocument subject names schema v = .error e) : e.subject = subject := by
  unfold checkDocument at failed
  split at failed
  · split at failed
    · split at failed
      · obtain rfl := Except.error.inj failed
        rfl
      · cases failed
    · obtain rfl := Except.error.inj failed
      rfl
  · obtain rfl := Except.error.inj failed
    rfl

theorem violations_eq_nil_of_checkDocument {names : List String} {schema : Schema}
    (checked : checkDocument subject names schema v = .ok ()) : schema.violations [] v = [] := by
  unfold checkDocument at checked
  split at checked
  · split at checked
    · split at checked
      · cases checked
      · rename_i reported
        exact Violation.best?_eq_none.mp reported
    · cases checked
  · cases checked

/-- The check for missing fields is part of what a schema of records says. -/
theorem checkDocument_record {names : List String} {schema : Schema} {known : List (String × Schema)}
    (form : schema = .record known) (listed : known.map (·.1) = names) :
    checkDocument subject names schema v = .ok () ↔ schema.violations [] v = [] := by
  subst form listed
  constructor
  · exact violations_eq_nil_of_checkDocument
  · intro follows
    obtain ⟨fields, layer, each⟩ := violations_record_eq_nil.mp follows
    obtain rfl := layer_eq_object_iff.mp layer
    refine checkDocument_eq_ok (fun name listed => ?_) follows
    obtain ⟨⟨_, schema⟩, member, rfl⟩ := List.mem_map.mp listed
    obtain ⟨part, given, _⟩ := each _ schema member
    rw [Fields.has, given]
    rfl

end Checking

/-! ### Diagnostics -/

namespace Diagnostic

variable {v : Value}

theorem read_of_hasShape (shape : HasShape v) : read v = .ok (ofValue v) := by
  have checked : checkDocument .diagnostic fieldNames schema v = .ok () :=
    (checkDocument_record schema_eq_record rfl).mpr ((violations_eq_nil [] v).mpr shape)
  rw [read, checked]
  rfl

theorem reordered_ofValue (content : Json.Content v) (shape : HasShape v) :
    Value.Reordered (v.restrict fieldNames) (ofValue v).toValue := by
  obtain ⟨counts, strings⟩ := shape
  simp only [List.forall_mem_cons] at counts strings
  obtain ⟨⟨code, codeGiven, _⟩, ⟨line, lineGiven, _⟩, ⟨column, columnGiven, _⟩, _⟩ := counts
  obtain ⟨⟨fileName, fileGiven⟩, ⟨message, messageGiven⟩, _⟩ := strings
  obtain ⟨fields, rfl⟩ := exists_fields_of_field? codeGiven
  obtain ⟨named, distinct, _⟩ := content.fields
  have same : ofValue (.object fields) = ⟨code, fileName, message, line, column⟩ := by
    simp only [ofValue, codeGiven, lineGiven, columnGiven, fileGiven, messageGiven, Value.number, Value.string]
  rw [same]
  apply Value.Reordered.of_perm
  apply Fields.filter_perm named distinct (by decide) rfl
  intro name part member
  simp only [List.mem_cons, List.not_mem_nil, or_false, Prod.mk.injEq, Scalar.string.injEq] at member
  rcases member with ⟨rfl, rfl⟩ | ⟨rfl, rfl⟩ | ⟨rfl, rfl⟩ | ⟨rfl, rfl⟩ | ⟨rfl, rfl⟩
  · exact codeGiven
  · exact fileGiven
  · exact messageGiven
  · exact lineGiven
  · exact columnGiven

end Diagnostic

/-! ### Reports -/

namespace Report

variable {v : Value}

/-- A document without the fields that no report has, in itself and in its diagnostics. -/
def known (v : Value) : Value :=
  (v.restrict fieldNames).mapFields (Value.mapItems (Value.restrict Diagnostic.fieldNames))

def ofItems (syntactic semantic : List Value) : Report :=
  ⟨syntactic.map Diagnostic.ofValue, semantic.map Diagnostic.ofValue⟩

theorem HasShape.lists (shape : HasShape v) : ∃ syntactic semantic,
    v.field? "syntacticErrors" = some (.list syntactic) ∧ v.field? "semanticErrors" = some (.list semantic) ∧
    (∀ item ∈ syntactic, Diagnostic.HasShape item) ∧ ∀ item ∈ semantic, Diagnostic.HasShape item := by
  obtain ⟨syntactic, first, each⟩ := shape "syntacticErrors" (by simp)
  obtain ⟨semantic, second, each'⟩ := shape "semanticErrors" (by simp)
  exact ⟨syntactic, semantic, first, second, each, each'⟩

theorem read_of_hasShape {syntactic semantic : List Value} (shape : HasShape v)
    (first : v.field? "syntacticErrors" = some (.list syntactic))
    (second : v.field? "semanticErrors" = some (.list semantic))
    (each : ∀ item ∈ syntactic, Diagnostic.HasShape item) (each' : ∀ item ∈ semantic, Diagnostic.HasShape item) :
    read v = .ok (ofItems syntactic semantic) := by
  have checked : checkDocument .report fieldNames schema v = .ok () :=
    (checkDocument_record schema_eq_record rfl).mpr ((violations_eq_nil [] v).mpr shape)
  have firstRead := mapM_eq_ok fun item member => Diagnostic.read_of_hasShape (each item member)
  have secondRead := mapM_eq_ok fun item member => Diagnostic.read_of_hasShape (each' item member)
  have entries : entries v "syntacticErrors" = syntactic ∧ entries v "semanticErrors" = semantic := by
    simp only [Report.entries, first, second, and_self]
  rw [read, checked, entries.1, entries.2, firstRead, secondRead]
  rfl

theorem read_of_not_hasShape (other : ¬ HasShape v) : ∃ e, read v = .error e ∧ e.subject = .report := by
  cases checked : checkDocument .report fieldNames schema v with
  | ok _ => exact absurd ((violations_eq_nil [] v).mp (violations_eq_nil_of_checkDocument checked)) other
  | error e =>
    refine ⟨e, ?_, subject_of_checkDocument checked⟩
    rw [read, checked]
    rfl

theorem runsAlong_schema : schema.RunsAlong [.name, .position, .name] := by
  have diagnostics : Diagnostic.schema.RunsAlong [.name] := by
    rw [Diagnostic.schema_eq_record]
    apply Schema.RunsAlong.record
    simp only [List.forall_mem_cons, List.not_mem_nil, false_implies, implies_true, and_true]
    exact ⟨Schema.runsAlong_count 1, Schema.runsAlong_text, Schema.runsAlong_text, Schema.runsAlong_count 1,
      Schema.runsAlong_count 1⟩
  rw [schema_eq_record]
  apply Schema.RunsAlong.record
  simp only [List.forall_mem_cons, List.not_mem_nil, false_implies, implies_true, and_true]
  exact ⟨diagnostics.listOf, diagnostics.listOf⟩

theorem reordered_ofItems {syntactic semantic : List Value} (content : Json.Content v)
    (first : v.field? "syntacticErrors" = some (.list syntactic))
    (second : v.field? "semanticErrors" = some (.list semantic))
    (each : ∀ item ∈ syntactic, Diagnostic.HasShape item) (each' : ∀ item ∈ semantic, Diagnostic.HasShape item) :
    Value.Reordered (known v) (ofItems syntactic semantic).toValue := by
  obtain ⟨fields, rfl⟩ := exists_fields_of_field? first
  obtain ⟨named, distinct, all⟩ := content.fields
  have order : (fields.filter fun field => field.1.isAmong fieldNames).Perm
      [(.string "syntacticErrors", .list syntactic), (.string "semanticErrors", .list semantic)] := by
    apply Fields.filter_perm named distinct (by decide) rfl
    intro name part member
    simp only [List.mem_cons, List.not_mem_nil, or_false, Prod.mk.injEq, Scalar.string.injEq] at member
    rcases member with ⟨rfl, rfl⟩ | ⟨rfl, rfl⟩
    · exact first
    · exact second
  have list {name : String} {items : List Value} (given : Fields.get? fields (.string name) = some (.list items))
      (shapes : ∀ item ∈ items, Diagnostic.HasShape item) :
      Value.Reordered (.list (items.map (Value.restrict Diagnostic.fieldNames)))
        (.list ((items.map Diagnostic.ofValue).map Diagnostic.toValue)) := by
    have inside : Json.Content (.list items) := all _ ((Fields.get?_eq_some_iff named distinct).mp given)
    apply Value.Reordered.list
    rw [List.map_map, List.forall₂_map_left_iff, List.forall₂_map_right_iff, List.forall₂_same]
    intro item member
    exact Diagnostic.reordered_ofValue (inside.items item member) (shapes item member)
  exact .object (order.map _) rfl (.cons (list first each) (.cons (list second each') .nil))

/-- A document from JSON text is read as a report exactly if it has the shape of one. The report then is the document
without unknown fields, up to the order of fields. Otherwise the document as a whole is refused, and nothing keeps the
reason from being reported. -/
theorem read_iff_hasShape {text : List Char} (parsed : Json.read text = .ok v) :
    ((∃ r, read v = .ok r) ↔ HasShape v) ∧
    (∀ r, read v = .ok r → Value.Reordered (known v) r.toValue) ∧
    (∀ e, read v = .error e → e.subject = .report) ∧ Violation.obstacle? (schema.violations [] v) = none := by
  have content := Json.content_of_read parsed
  have reportable := runsAlong_schema.obstacle?_eq_none content
  by_cases shape : HasShape v
  · obtain ⟨syntactic, semantic, first, second, each, each'⟩ := shape.lists
    have reading := read_of_hasShape shape first second each each'
    refine ⟨iff_of_true ⟨_, reading⟩ shape, fun r made => ?_, fun e failed => ?_, reportable⟩
    · obtain rfl := Except.ok.inj (reading.symm.trans made)
      exact reordered_ofItems content first second each each'
    · cases reading.symm.trans failed
  · obtain ⟨e, reading, subject⟩ := read_of_not_hasShape shape
    have refused : ¬ ∃ r, read v = .ok r := by
      rintro ⟨r, made⟩
      cases reading.symm.trans made
    refine ⟨iff_of_false refused shape, fun r made => ?_, fun e' failed => ?_, reportable⟩
    · exact absurd ⟨r, made⟩ refused
    · obtain rfl := Except.error.inj (reading.symm.trans failed)
      exact subject

theorem read_iff_hasShape_unknown_fields : ∃ v r,
    Json.read ("\x7b\"semanticErrors\": [\x7b\"line\": 3, \"code\": 2.307e3, \"at\": [], \"message\": \"m\", " ++
      "\"column\": 1.0, \"fileName\": \"a.ts\"\x7d], \"version\": null, \"syntacticErrors\": []\x7d").toList = .ok v ∧
    read v = .ok r ∧ r.format = "a.ts:3:1.0: TS2307.0: m" ∧ HasShape v ∧ Value.Reordered (known v) r.toValue := by
  have accepted (text line : String)
      (run : ((Json.read text.toList).toOption.bind fun v => (read v).toOption.map format) = some line) :
      ∃ v r, Json.read text.toList = .ok v ∧ read v = .ok r ∧ r.format = line ∧ HasShape v ∧
        Value.Reordered (known v) r.toValue := by
    obtain ⟨v, found, rest⟩ := Option.bind_eq_some_iff.mp run
    obtain ⟨r, found', shown⟩ := Option.map_eq_some_iff.mp rest
    have parsed : Json.read text.toList = .ok v := eq_ok_of_toOption found
    have made : read v = .ok r := eq_ok_of_toOption found'
    obtain ⟨exactly, kept, _⟩ := read_iff_hasShape parsed
    exact ⟨v, r, parsed, made, shown, exactly.mp ⟨r, made⟩, kept r made⟩
  exact accepted _ _ (by decide +kernel)

end Report

end CompilerAdapter
