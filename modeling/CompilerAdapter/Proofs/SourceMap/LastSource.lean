import CompilerAdapter.Proofs.Document.Overwriting
import CompilerAdapter.Proofs.Document.Restriction
import CompilerAdapter.Proofs.Json.WholeNumbers
import CompilerAdapter.Proofs.Outcome
import CompilerAdapter.SourceMap

/-!
# The last source wins

A prepared map names its one source and is otherwise the map that was read. It can be written and prepared again, and
only the last source is left: `prepare_text_prepared`.
-/

namespace CompilerAdapter.SourceMap

/-- The fields that preparing gives values, in the order in which they are added. -/
def sourceNames : List String := ["sourcesContent", "sources"]

/-- The fields that preparing leaves alone. -/
def otherFields (fields : Fields) : Fields := fields.filter fun field => !field.1.isAmong sourceNames

variable {text content path : String} {fields : Fields}

/-! ### The fields of a prepared map -/

theorem get?_sources_withSource (fields : Fields) (content path : String) :
    (withSource fields content path).get? (.string "sources") = some (.list [.string path]) :=
  Fields.get?_put_same _ _ _

theorem get?_content_withSource (fields : Fields) (content path : String) :
    (withSource fields content path).get? (.string "sourcesContent") = some (.list [.string content]) := by
  rw [withSource, Fields.get?_put_other _ (by decide), Fields.get?_put_same]

theorem otherFields_withSource (fields : Fields) (content path : String) :
    otherFields (withSource fields content path) = otherFields fields := by
  have kept (fields : Fields) {name : String} (source : name ∈ sourceNames) (v : Value) :
      otherFields (fields.put (.string name) v) = otherFields fields :=
    Fields.filter_put (fun key => !key.isAmong sourceNames) (by simpa [Scalar.isAmong] using source) v
  rw [withSource, kept _ (by decide), kept _ (by decide)]

theorem map_fst_withSource (named : fields.IsNamed) (content path : String) :
    (withSource fields content path).map Prod.fst =
      fields.map Prod.fst ++ (sourceNames.map Scalar.string).filter (· ∉ fields.map Prod.fst) := by
  rw [withSource, Fields.map_fst_put (named.put _ _), Fields.map_fst_put named]
  by_cases first : .string "sourcesContent" ∈ fields.map Prod.fst
  · by_cases second : .string "sources" ∈ fields.map Prod.fst
    · simp [sourceNames, first, second]
    · simp [sourceNames, first, second]
  · by_cases second : .string "sources" ∈ fields.map Prod.fst
    · simp [sourceNames, first, second]
    · simp [sourceNames, first, second]

theorem withSource_withSource (fields : Fields) (content path content' path' : String) :
    withSource (withSource fields content path) content' path' = withSource fields content' path' :=
  Fields.put_pair_again (by decide) _ _ _ _

theorem lossless_withSource (lossless : Json.Lossless (.object fields)) (content path : String) :
    Json.Lossless (.object (withSource fields content path)) := by
  have one (s : String) : Json.Lossless (.list [.string s]) := .list (by simpa using Json.Lossless.string s)
  exact (lossless.put _ (one content)).put _ (one path)

/-! ### Preparing -/

theorem prepare_of_object (parsed : Json.read text.toList = .ok (.object fields)) (content path : String) :
    prepare text content path = (sourceCount fields).map fun count =>
      ⟨withSource fields content path, if 1 < count then [.collapsedSources count path] else []⟩ := by
  rw [prepare, parsed]

theorem exists_fields_of_prepare {m : Prepared} (made : prepare text content path = .ok m) :
    ∃ fields, Json.read text.toList = .ok (.object fields) := by
  unfold prepare at made
  split at made
  · cases made
  · cases made
  · exact ⟨_, by assumption⟩
  · cases made

/-- Whether a map can be prepared does not depend on the source that it is given. -/
theorem exists_prepare {m : Prepared} (parsed : Json.read text.toList = .ok (.object fields))
    (made : prepare text content path = .ok m) (content' path' : String) :
    ∃ log, prepare text content' path' = .ok ⟨withSource fields content' path', log⟩ := by
  rw [prepare_of_object parsed] at made ⊢
  cases counted : sourceCount fields with
  | ok count => exact ⟨_, rfl⟩
  | error e =>
    rw [counted] at made
    cases made

theorem prepare_of_single_source (parsed : Json.read text.toList = .ok (.object fields))
    (single : fields.get? (.string "sources") = some (.list [.string path])) (content' path' : String) :
    prepare text content' path' = .ok ⟨withSource fields content' path', []⟩ := by
  have counted : sourceCount fields = .ok 1 := by
    rw [sourceCount, single]
    rfl
  rw [prepare_of_object parsed, counted]
  rfl

/-- Only the last source is left of two that a map is given, one after the other. -/
theorem prepare_text_prepared {m : Prepared} (parsed : Json.read text.toList = .ok (.object fields))
    (whole : (Value.object fields).HasWholeNumbers) (made : prepare text content path = .ok m)
    (content' path' : String) :
    m.fields.get? (.string "sources") = some (.list [.string path]) ∧
    m.fields.get? (.string "sourcesContent") = some (.list [.string content]) ∧
    otherFields m.fields = otherFields fields ∧
    m.fields.map Prod.fst =
      fields.map Prod.fst ++ (sourceNames.map Scalar.string).filter (· ∉ fields.map Prod.fst) ∧
    Json.obstacle? (.object m.fields) = none ∧
    ∃ fields' log, prepare text content' path' = .ok ⟨fields', log⟩ ∧
      prepare (Json.text (.object m.fields)) content' path' = .ok ⟨fields', []⟩ := by
  have read := Json.content_of_read parsed
  obtain ⟨named, _, _⟩ := read.fields
  obtain ⟨_, first⟩ := exists_prepare parsed made content path
  obtain ⟨log, second⟩ := exists_prepare parsed made content' path'
  obtain rfl := Except.ok.inj (made.symm.trans first)
  have sources := get?_sources_withSource fields content path
  have lossless := lossless_withSource (read.lossless whole) content path
  have written : Json.read (Json.text (.object (withSource fields content path))).toList =
      .ok (.object (withSource fields content path)) := by
    rw [Json.text, String.toList_ofList]
    exact Json.read_write lossless
  have again := prepare_of_single_source written sources content' path'
  rw [withSource_withSource] at again
  exact ⟨sources, get?_content_withSource fields content path, otherFields_withSource fields content path,
    map_fst_withSource named content path, lossless.obstacle?_eq_none, _, log, second, again⟩

theorem prepare_text_prepared_repeated_name : ∃ text fields m fields',
    text = "\x7b\"b\": 1, \"sources\": [\"x\", \"y\"], \"a\": \x7b\"\\u00e9\": [-2, null]\x7d, \"b\": true\x7d" ∧
    Json.read text.toList = .ok (.object fields) ∧ (Value.object fields).HasWholeNumbers ∧
    prepare text "c" "p" = .ok m ∧ m.log = [.collapsedSources 2 "p"] ∧
    Json.text (.object m.fields) = "\x7b\"b\": true, \"sources\": [\"p\"], \"a\": \x7b\"\\u00e9\": [-2, null]\x7d, " ++
      "\"sourcesContent\": [\"c\"]\x7d" ∧
    prepare (Json.text (.object m.fields)) "d" "q" = .ok ⟨fields', []⟩ := by
  let text := "\x7b\"b\": 1, \"sources\": [\"x\", \"y\"], \"a\": \x7b\"\\u00e9\": [-2, null]\x7d, \"b\": true\x7d"
  have run : ((prepare text "c" "p").toOption.map fun m => (m.log, Json.text (.object m.fields))) =
      some ([.collapsedSources 2 "p"],
        "\x7b\"b\": true, \"sources\": [\"p\"], \"a\": \x7b\"\\u00e9\": [-2, null]\x7d, " ++
          "\"sourcesContent\": [\"c\"]\x7d") := by decide +kernel
  have numbers : (Json.read text.toList).toOption.map Value.numbers = some [.int (-2)] := by decide +kernel
  obtain ⟨m, found, shown⟩ := Option.map_eq_some_iff.mp run
  obtain ⟨logged, written⟩ := Prod.mk.inj shown
  have made : prepare text "c" "p" = .ok m := eq_ok_of_toOption found
  obtain ⟨fields, parsed⟩ := exists_fields_of_prepare made
  have whole : (Value.object fields).HasWholeNumbers := by
    rw [parsed] at numbers
    simp [Value.HasWholeNumbers, Option.some.inj numbers]
  obtain ⟨_, _, _, _, _, fields', _, _, again⟩ := prepare_text_prepared parsed whole made "d" "q"
  exact ⟨text, fields, m, fields', rfl, parsed, whole, made, logged, written, again⟩

end CompilerAdapter.SourceMap
