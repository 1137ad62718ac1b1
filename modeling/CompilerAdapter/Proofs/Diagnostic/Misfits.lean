import CompilerAdapter.Proofs.Diagnostic.Acceptance
import CompilerAdapter.Proofs.Document.DottedPaths

/-!
# Where a document is no report

A document with both lists that is refused is refused for what stands at one place of it, or for all the fields that one
diagnostic lacks. Lists come before diagnostics and diagnostics before their fields: `Report.read_error_reported`.
-/

namespace CompilerAdapter

/-- An object with the named fields, whatever they hold. -/
def Value.HasFields (v : Value) (names : List String) : Prop := ∀ name ∈ names, ∃ part, v.field? name = some part

/-- The names of fields that a diagnostic lacks, in the order of the schema. -/
def Diagnostic.absent (fields : Fields) : List String :=
  fieldNames.filter fun key => !Fields.has fields (.string key)

/-- What a field of a diagnostic has to hold. -/
def Diagnostic.Admits (key : String) (part : Value) : Prop :=
  if key ∈ ["code", "line", "column"] then ∃ n, part = .number n ∧ n.IsCount else ∃ s, part = .string s

namespace Report

/-- A place of a report: one of its lists, a diagnostic in a list, or a field of a diagnostic. -/
inductive Place where
  | list (name : String)
  | entry (name : String) (index : Nat)
  | field (name : String) (index : Nat) (key : String)

namespace Place

def path : Place → List Scalar
  | .list name => [.string name]
  | .entry name index => [.string name, .number (.int index)]
  | .field name index key => [.string name, .number (.int index), .string key]

/-- The dotted path to a place. -/
def text : Place → String
  | .list name => name
  | .entry name index => name ++ "." ++ String.ofList (Nat.toDigits 10 index)
  | .field name index key => name ++ "." ++ String.ofList (Nat.toDigits 10 index) ++ "." ++ key

def Known : Place → Prop
  | .list name | .entry name _ => name ∈ Report.fieldNames
  | .field name _ key => name ∈ Report.fieldNames ∧ key ∈ Diagnostic.fieldNames

/-- What a place of a report has to hold. -/
def Admits : Place → Value → Prop
  | .list _, part => ∃ items, part = .list items
  | .entry _ _, part => ∃ fields, part = .object fields
  | .field _ _ key, part => Diagnostic.Admits key part

/-! ### Dotted paths to places -/

variable {v part : Value} {name key : String} {index : Nat} {items : List Value}

theorem no_point_of_mem : (∀ name ∈ Report.fieldNames, '.' ∉ name.toList) ∧
    ∀ key ∈ Diagnostic.fieldNames, '.' ∉ key.toList := by
  decide

theorem at?_list (known : name ∈ Report.fieldNames) (given : v.field? name = some part) :
    v.at? (list name).text = some part := by
  rw [text, Value.at?_single (no_point_of_mem.1 name known)]
  exact Value.child?_of_field? given

theorem at?_entry (known : name ∈ Report.fieldNames) (given : v.field? name = some (.list items))
    (placed : items[index]? = some part) : v.at? (entry name index).text = some part := by
  have clean : '.' ∉ (String.ofList (Nat.toDigits 10 index)).toList := by
    rw [String.toList_ofList]
    exact Numeral.not_mem_toDigits (by decide)
  rw [text, Value.at?_append _ clean]
  have outer : v.at? name = some (.list items) := at?_list known given
  rw [outer, Option.bind_some, String.toList_ofList]
  exact Value.child?_position placed

theorem at?_field {item : Value} (known : name ∈ Report.fieldNames) (known' : key ∈ Diagnostic.fieldNames)
    (given : v.field? name = some (.list items)) (placed : items[index]? = some item)
    (held : item.field? key = some part) : v.at? (field name index key).text = some part := by
  have outer : v.at? (name ++ "." ++ String.ofList (Nat.toDigits 10 index)) = some item := at?_entry known given placed
  rw [text, Value.at?_append _ (no_point_of_mem.2 key known'), outer, Option.bind_some]
  exact Value.child?_of_field? held

/-! ### The fields that a violation names -/

theorem joined_path (place : Place) : Violation.joined "." (place.path.map Scalar.plain) = place.text.toList := by
  have named (name : String) : (Scalar.string name).plain = name.toList := rfl
  have placed (index : Nat) : (Scalar.number (.int index)).plain = Nat.toDigits 10 index := rfl
  cases place <;>
    simp only [Violation.joined, path, text, List.map_cons, List.map_nil, named, placed, List.intercalate_cons_cons,
      List.intercalate_singleton, String.toList_append, String.toList_ofList, List.append_assoc]

theorem text_not_empty {place : Place} (known : place.Known) : place.text.toList.isEmpty = false := by
  have filled : ∀ name ∈ Report.fieldNames, name.toList ≠ [] := by decide
  cases place with
  | list name => simpa [text] using filled name known
  | entry name index => simp [text]
  | field name index key => simp [text]

theorem fields_of_path (place : Place) {w : Violation} (known : place.Known) (there : w.path = place.path)
    (whole : ∀ key absent, w.cause ≠ .missing key absent) : w.fields = [place.text] := by
  unfold Violation.fields
  dsimp only
  rw [there, joined_path, text_not_empty known]
  split
  · rename_i key absent cause
    exact absurd cause (whole key absent)
  · simp

theorem fields_of_missing (name : String) (index : Nat) (key : String) (absent : List String) (misfit : Bool) :
    Violation.fields ⟨(entry name index).path, .missing key absent, misfit⟩ =
      absent.map fun key => (field name index key).text := by
  have filled : (entry name index).text.toList.isEmpty = false := by simp [text]
  have behind : ∀ key : String, String.ofList ((entry name index).text.toList ++ '.' :: key.toList) =
      (field name index key).text := by
    intro key
    apply String.toList_inj.mp
    simp [text]
  unfold Violation.fields
  dsimp only
  simp only [joined_path, filled, behind, Bool.false_eq_true, if_false]

end Place

/-! ### What violations report -/

/-- What is reported of a document: a place that holds something else than it has to, or all the fields that the
diagnostic at a place lacks. -/
inductive Reported (v : Value) : Place → List String → Prop where
  | other {place : Place} {part : Value} (known : place.Known) (found : v.at? place.text = some part)
      (wrong : ¬ place.Admits part) : Reported v place [place.text]
  | lacking {name : String} {index : Nat} {fields : Fields} (known : (Place.entry name index).Known)
      (found : v.at? (Place.entry name index).text = some (.object fields)) (lacks : Diagnostic.absent fields ≠ []) :
      Reported v (.entry name index) ((Diagnostic.absent fields).map fun key => (Place.field name index key).text)

theorem Reported.ne_nil {v : Value} {place : Place} {names : List String} (reported : Reported v place names) :
    names ≠ [] := by
  cases reported with
  | other _ _ _ => simp
  | lacking _ _ lacks => simpa using lacks

end Report

theorem whole_ofKind {path : List Scalar} {part : Value} {kind : Kind} (key : String) (absent : List String) :
    (Violation.ofKind path part kind).cause ≠ .missing key absent := by
  simp [Violation.ofKind]

namespace Diagnostic

variable {path : List Scalar} {part : Value} {w : Violation}

/-- The fields of a diagnostic with their schemas. -/
def knownFields : List (String × Schema) :=
  [("code", .count 1), ("fileName", .text), ("message", .text), ("line", .count 1), ("column", .count 1)]

theorem not_count_of_mem (broken : w ∈ (Schema.count 1).violations path part) :
    w.path = path ∧ (∀ key absent, w.cause ≠ .missing key absent) ∧ ¬ ∃ n, part = .number n ∧ n.IsCount := by
  have wrong : ¬ ∃ n, part = .number n ∧ n.IsCount := by
    rintro ⟨n, rfl, count⟩
    rw [violations_count_eq_nil.mpr ⟨n, rfl, n.isCount_iff.mp count⟩] at broken
    cases broken
  rcases mem_violations_count.mp broken with ⟨_, rfl⟩ | ⟨n, _, _, rfl⟩
  · exact ⟨rfl, nofun, wrong⟩
  · exact ⟨rfl, nofun, wrong⟩

theorem not_text_of_mem (broken : w ∈ Schema.text.violations path part) :
    w.path = path ∧ (∀ key absent, w.cause ≠ .missing key absent) ∧ ¬ ∃ s, part = .string s := by
  obtain ⟨other, rfl⟩ := mem_violations_text.mp broken
  refine ⟨rfl, nofun, ?_⟩
  rintro ⟨s, rfl⟩
  exact other s rfl

theorem not_admits_of_mem {key : String} {schema : Schema} (known : (key, schema) ∈ knownFields)
    (broken : w ∈ schema.violations path part) :
    w.path = path ∧ (∀ key absent, w.cause ≠ .missing key absent) ∧ ¬ Admits key part := by
  simp only [knownFields, List.mem_cons, List.not_mem_nil, or_false, Prod.mk.injEq] at known
  unfold Admits
  rcases known with ⟨rfl, rfl⟩ | ⟨rfl, rfl⟩ | ⟨rfl, rfl⟩ | ⟨rfl, rfl⟩ | ⟨rfl, rfl⟩
  · simpa using not_count_of_mem broken
  · simpa using not_text_of_mem broken
  · simpa using not_text_of_mem broken
  · simpa using not_count_of_mem broken
  · simpa using not_count_of_mem broken

theorem hasFields_of_absent {fields : Fields} (complete : absent fields = []) :
    (Value.object fields).HasFields fieldNames := by
  intro key known
  have given := List.filter_eq_nil_iff.mp complete key known
  rw [Bool.not_eq_true, Bool.not_eq_false'] at given
  exact Option.isSome_iff_exists.mp given

theorem exists_violation_of_not_hasFields (path : List Scalar) (lacking : ¬ part.HasFields fieldNames) :
    ∃ w ∈ schema.violations path part, w.path = path := by
  rw [schema_eq_record]
  by_cases object : ∃ fields, part = .object fields
  · obtain ⟨fields, rfl⟩ := object
    have filled : absent fields ≠ [] := fun complete => lacking (hasFields_of_absent complete)
    obtain ⟨key, lacks⟩ := List.exists_mem_of_ne_nil _ filled
    exact ⟨_, mem_violations_record.mpr (.inr ⟨fields, rfl, .inl ⟨key, lacks, rfl⟩⟩), rfl⟩
  · have other : ∀ fields, Layered.layer part ≠ .object fields := by
      intro fields layer
      exact object ⟨fields, layer_eq_object_iff.mp layer⟩
    exact ⟨_, mem_violations_record.mpr (.inl ⟨other, rfl⟩), rfl⟩

end Diagnostic

namespace Report

variable {v : Value} {w : Violation}

def knownLists : List (String × Schema) :=
  [("syntacticErrors", .listOf Diagnostic.schema), ("semanticErrors", .listOf Diagnostic.schema)]

theorem mem_knownLists {name : String} {schema : Schema} :
    (name, schema) ∈ knownLists ↔ name ∈ fieldNames ∧ schema = .listOf Diagnostic.schema := by
  simp [knownLists, fieldNames, or_and_right]

/-- A document with both lists breaks the schema in one of them. -/
theorem mem_violations_schema (listed : v.HasFields fieldNames) :
    w ∈ schema.violations [] v ↔ ∃ name ∈ fieldNames, ∃ part, v.field? name = some part ∧
      w ∈ (Schema.listOf Diagnostic.schema).violations [.string name] part := by
  obtain ⟨_, given⟩ := listed "syntacticErrors" (by decide)
  obtain ⟨fields, rfl⟩ := exists_fields_of_field? given
  have complete : Fields.absent fields knownLists = [] := by
    apply no_field_missing
    intro name known
    exact Option.isSome_iff_exists.mpr (listed name known)
  have form : schema = .record knownLists := schema_eq_record
  rw [form, mem_violations_record]
  constructor
  · rintro (⟨other, _⟩ | ⟨fields', layer, absent | ⟨name, schema, part, member, given, inside⟩⟩)
    · exact absurd rfl (other fields)
    · obtain rfl := Layer.object.inj layer
      simp [complete] at absent
    · obtain rfl := Layer.object.inj layer
      obtain ⟨known, rfl⟩ := mem_knownLists.mp member
      exact ⟨name, known, part, given, inside⟩
  · rintro ⟨name, known, part, given, inside⟩
    exact .inr ⟨fields, rfl, .inr ⟨name, _, part, mem_knownLists.mpr ⟨known, rfl⟩, given, inside⟩⟩

theorem reported_of_path {place : Place} {part : Value} (known : place.Known) (there : w.path = place.path)
    (whole : ∀ key absent, w.cause ≠ .missing key absent) (found : v.at? place.text = some part)
    (wrong : ¬ place.Admits part) : Reported v place w.fields := by
  rw [Place.fields_of_path place known there whole]
  exact .other known found wrong

theorem reported_of_mem (listed : v.HasFields fieldNames) (broken : w ∈ schema.violations [] v) :
    ∃ place : Place, w.path = place.path ∧ Reported v place w.fields := by
  obtain ⟨name, known, part, given, broken⟩ := (mem_violations_schema listed).mp broken
  rcases mem_violations_listOf.mp broken with ⟨other, rfl⟩ | ⟨items, index, item, layer, placed, inside⟩
  · have wrong : ¬ (Place.list name).Admits part := by
      rintro ⟨items, rfl⟩
      exact other items rfl
    exact ⟨.list name, rfl, reported_of_path known rfl whole_ofKind (Place.at?_list known given) wrong⟩
  obtain rfl := layer_eq_list_iff.mp layer
  have found : v.at? (Place.entry name index).text = some item := Place.at?_entry known given placed
  rw [Diagnostic.schema_eq_record] at inside
  rcases mem_violations_record.mp inside with ⟨other, rfl⟩ | ⟨fields, layer, absent | below⟩
  · have wrong : ¬ (Place.entry name index).Admits item := by
      rintro ⟨fields, rfl⟩
      exact other fields rfl
    exact ⟨.entry name index, rfl, reported_of_path known rfl whole_ofKind found wrong⟩
  · obtain ⟨key, lacks, rfl⟩ := absent
    obtain rfl := layer_eq_object_iff.mp layer
    -- Each missing field is a violation of its own, and any of them names them all.
    have named := Place.fields_of_missing name index key (Diagnostic.absent fields) false
    exact ⟨.entry name index, rfl, named ▸ .lacking known found (List.ne_nil_of_mem lacks)⟩
  · obtain ⟨key, schema, part, member, held, deeper⟩ := below
    obtain rfl := layer_eq_object_iff.mp layer
    have known' : key ∈ Diagnostic.fieldNames := List.mem_map_of_mem (f := Prod.fst) member
    obtain ⟨there, whole, wrong⟩ := Diagnostic.not_admits_of_mem member deeper
    refine ⟨.field name index key, there, ?_⟩
    exact reported_of_path ⟨known, known'⟩ there whole (Place.at?_field known known' given placed held) wrong

theorem not_reported_list (lists : ∀ name ∈ fieldNames, ∃ items, v.field? name = some (.list items)) {name : String}
    {names : List String} : ¬ Reported v (.list name) names := by
  intro reported
  cases reported with
  | other known found wrong =>
    obtain ⟨items, given⟩ := lists name known
    obtain rfl := Option.some.inj ((Place.at?_list known given).symm.trans found)
    exact wrong ⟨items, rfl⟩

/-! ### The violation that is reported -/

theorem best_of_read (listed : v.HasFields fieldNames) {e : ReadingError} (failed : read v = .error e) :
    ∃ w, e = .invalid .report w ∧ schema.violation? v = some w := by
  have broken : schema.violations [] v ≠ [] := by
    intro follows
    have shape : HasShape v := (violations_eq_nil [] v).mp follows
    obtain ⟨syntactic, semantic, first, second, each, each'⟩ := shape.lists
    cases (read_of_hasShape shape first second each each').symm.trans failed
  obtain ⟨_, given⟩ := listed "syntacticErrors" (by decide)
  obtain ⟨fields, rfl⟩ := exists_fields_of_field? given
  obtain ⟨w, reported, checked⟩ : ∃ w, schema.violation? (Value.object fields) = some w ∧
      checkDocument .report fieldNames schema (.object fields) = .error (.invalid .report w) :=
    checkDocument_eq_error (fun name known => Option.isSome_iff_exists.mpr (listed name known)) broken
  rw [read, checked] at failed
  exact ⟨w, (Except.error.inj failed).symm, reported⟩

theorem exists_violation_of_list (listed : v.HasFields fieldNames) {name : String} {part : Value}
    (known : name ∈ fieldNames) (given : v.field? name = some part) (wrong : ¬ (Place.list name).Admits part) :
    ∃ w ∈ schema.violations [] v, w.path.length = 1 := by
  have other : ∀ items, Layered.layer part ≠ .list items := by
    intro items layer
    exact wrong ⟨items, layer_eq_list_iff.mp layer⟩
  have inside : Violation.ofKind [.string name] part Kind.list ∈
      (Schema.listOf Diagnostic.schema).violations [.string name] part := mem_violations_listOf.mpr (.inl ⟨other, rfl⟩)
  exact ⟨_, (mem_violations_schema listed).mpr ⟨name, known, part, given, inside⟩, rfl⟩

theorem exists_violation_of_entry (listed : v.HasFields fieldNames) {name : String}
    {items : List Value} {item : Value} (known : name ∈ fieldNames) (given : v.field? name = some (.list items))
    (member : item ∈ items) (lacking : ¬ item.HasFields Diagnostic.fieldNames) :
    ∃ w ∈ schema.violations [] v, w.path.length = 2 := by
  obtain ⟨index, placed⟩ := List.mem_iff_getElem?.mp member
  obtain ⟨w, inside, there⟩ :=
    Diagnostic.exists_violation_of_not_hasFields [.string name, .number (.int index)] lacking
  have within : w ∈ (Schema.listOf Diagnostic.schema).violations [.string name] (Value.list items) :=
    mem_violations_listOf.mpr (.inr ⟨items, index, item, rfl, placed, inside⟩)
  exact ⟨w, (mem_violations_schema listed).mpr ⟨name, known, _, given, within⟩, by rw [there]; rfl⟩

/-- A document with both lists that is refused is refused for fields at one place. It is a list if some list is none,
and otherwise a diagnostic if some diagnostic is no object or lacks a field. -/
theorem read_error_reported (listed : v.HasFields fieldNames) {e : ReadingError}
    (failed : read v = .error e) : e.fields ≠ [] ∧ ∃ place : Place, Reported v place e.fields ∧
      ((∃ name ∈ fieldNames, ∃ part, v.field? name = some part ∧ ¬ (Place.list name).Admits part) →
        ∃ name, place = .list name) ∧
      ((∀ name ∈ fieldNames, ∃ items, v.field? name = some (.list items)) →
        (∃ name ∈ fieldNames, ∃ items, v.field? name = some (.list items) ∧
          ∃ item ∈ items, ¬ item.HasFields Diagnostic.fieldNames) →
        ∃ name index, place = .entry name index) := by
  obtain ⟨w, rfl, best⟩ := best_of_read listed failed
  obtain ⟨place, there, reported⟩ := reported_of_mem listed (Violation.mem_of_best? best)
  -- A place that lies deeper than some violation cannot be the one that is reported.
  have shallowest := Violation.depth_le_of_best? best
  rw [there] at shallowest
  refine ⟨reported.ne_nil, place, reported, ?_, ?_⟩
  · rintro ⟨name, known, part, given, wrong⟩
    obtain ⟨w', broken, depth⟩ := exists_violation_of_list listed known given wrong
    have bound : place.path.length ≤ 1 := depth ▸ shallowest w' broken
    cases place with
    | list name => exact ⟨name, rfl⟩
    | entry _ _ | field _ _ _ => simp [Place.path] at bound
  · rintro lists ⟨name, known, items, given, item, member, lacking⟩
    obtain ⟨w', broken, depth⟩ := exists_violation_of_entry listed known given member lacking
    have bound : place.path.length ≤ 2 := depth ▸ shallowest w' broken
    cases place with
    | list name => exact absurd reported (not_reported_list lists)
    | entry name index => exact ⟨name, index, rfl⟩
    | field _ _ _ => simp [Place.path] at bound

theorem read_error_reported_lacking :
    let v := Value.object
      [(.string "syntacticErrors", .list [Diagnostic.toValue ⟨.int 0, "a.ts", "m", .int 1, .int 1⟩]),
       (.string "semanticErrors", .list [.object
         [(.string "message", .string "m"), (.string "line", .string "1"), (.string "code", .int 2307)]])]
    ∃ e name index, read v = .error e ∧ Reported v (.entry name index) e.fields ∧
      e.fields = ["semanticErrors.0.fileName", "semanticErrors.0.column"] := by
  intro v
  have listed : ∀ name ∈ fieldNames, ∃ items, v.field? name = some (.list items) := by
    intro name known
    simp only [fieldNames, List.mem_cons, List.not_mem_nil, or_false] at known
    rcases known with rfl | rfl <;> exact ⟨_, rfl⟩
  have bare : ∃ item ∈ [Value.object
      [(.string "message", .string "m"), (.string "line", .string "1"), (.string "code", .int 2307)]],
      ¬ item.HasFields Diagnostic.fieldNames := by
    refine ⟨_, List.mem_cons_self, fun complete => ?_⟩
    obtain ⟨part, given⟩ := complete "fileName" (by decide)
    cases given
  have present : v.HasFields fieldNames := by
    intro name known
    obtain ⟨items, given⟩ := listed name known
    exact ⟨_, given⟩
  have run : (error? (read v)).map (·.fields) = some ["semanticErrors.0.fileName", "semanticErrors.0.column"] := by
    decide
  obtain ⟨e, found, shown⟩ := Option.map_eq_some_iff.mp run
  have failed : read v = .error e := eq_error_of_error? found
  obtain ⟨_, place, reported, _, entry⟩ := read_error_reported present failed
  obtain ⟨name, index, rfl⟩ := entry listed ⟨"semanticErrors", by decide, _, rfl, bare⟩
  exact ⟨e, name, index, failed, reported, shown⟩

end Report

end CompilerAdapter
