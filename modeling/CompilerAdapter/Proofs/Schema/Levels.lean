import CompilerAdapter.Proofs.Json.Content
import CompilerAdapter.Proofs.Schema.Records
import CompilerAdapter.Proofs.Schema.Violations

/-!
# Violations that can be reported

A schema of records and lists finds violations at places that alternate between names and positions in lists, at each
level the same. Any two of them can be compared, and what they show of a document read from JSON text can be shown:
`Schema.RunsAlong.obstacle?_eq_none`.
-/

namespace CompilerAdapter

/-- What the keys of a level are: names of fields, or positions in a list. -/
inductive Level where
  | name
  | position

/-- A path along levels, which may end before they do. -/
inductive Along : List Level → List Scalar → Prop where
  | here (levels : List Level) : Along levels []
  | name {levels : List Level} {path : List Scalar} (s : String) (below : Along levels path) :
      Along (.name :: levels) (.string s :: path)
  | position {levels : List Level} {path : List Scalar} (i : Int) (below : Along levels path) :
      Along (.position :: levels) (.number (.int i) :: path)

variable {levels : List Level}

theorem Along.exceeds?_of_parting? {first second : List Scalar} (one : Along levels first)
    (other : Along levels second) {a b : Scalar} (parting : Violation.parting? first second = some (a, b)) :
    ∃ greater, a.exceeds? b = some greater := by
  induction one generalizing second with
  | here _ => cases other <;> cases parting
  | name s _ ih =>
    cases other with
    | here _ => cases parting
    | name t below =>
      rw [Violation.parting?] at parting
      split at parting
      · exact ih below parting
      · obtain ⟨rfl, rfl⟩ := Prod.mk.inj (Option.some.inj parting)
        exact ⟨_, rfl⟩
  | position i _ ih =>
    cases other with
    | here _ => cases parting
    | position j below =>
      rw [Violation.parting?] at parting
      split at parting
      · exact ih below parting
      · obtain ⟨rfl, rfl⟩ := Prod.mk.inj (Option.some.inj parting)
        exact ⟨_, rfl⟩

theorem Violation.clash?_eq_none {v w : Violation} (first : Along levels v.path) (second : Along levels w.path) :
    clash? v w = none := by
  unfold clash?
  split
  · rw [Option.filter_eq_none_iff]
    intro (a, b) parting
    obtain ⟨greater, ordered⟩ := first.exceeds?_of_parting? second parting
    simp [ordered]
  · rfl

/-! ### Violations along levels -/

/-- A violation at or below a path, along levels from there, that can be shown. -/
def Violation.RunsFrom (path : List Scalar) (levels : List Level) (v : Violation) : Prop :=
  v.cause.isWritable = true ∧ ∃ below, v.path = path ++ below ∧ Along levels below

namespace Violation.RunsFrom

variable {path : List Scalar} {v : Violation}

theorem here (shown : v.cause.isWritable = true) (place : v.path = path) : v.RunsFrom path levels :=
  ⟨shown, [], by rw [place, List.append_nil], .here levels⟩

theorem below_name {s : String} (runs : v.RunsFrom (path ++ [.string s]) levels) : v.RunsFrom path (.name :: levels) := by
  obtain ⟨shown, below, place, along⟩ := runs
  refine ⟨shown, .string s :: below, ?_, .name s along⟩
  rw [place, List.append_assoc, List.singleton_append]

theorem below_position {i : Int} (runs : v.RunsFrom (path ++ [.number (.int i)]) levels) :
    v.RunsFrom path (.position :: levels) := by
  obtain ⟨shown, below, place, along⟩ := runs
  refine ⟨shown, .number (.int i) :: below, ?_, .position i along⟩
  rw [place, List.append_assoc, List.singleton_append]

end Violation.RunsFrom

/-! ### Schemas along levels -/

/-- In documents from JSON text, the violations of a schema lie along levels, and can be shown. -/
def Schema.RunsAlong (schema : Schema) (levels : List Level) : Prop :=
  ∀ path (document : Value), Json.Content document → ∀ v ∈ schema.violations path document, v.RunsFrom path levels

namespace Schema

variable {schema : Schema} {known : List (String × Schema)}

theorem runsAlong_text : text.RunsAlong levels := by
  intro path document content v broken
  obtain ⟨_, rfl⟩ := mem_violations_text.mp broken
  exact .here content.isWritable rfl

theorem runsAlong_count (minimum : Int) : (count minimum).RunsAlong levels := by
  intro path document content v broken
  rcases mem_violations_count.mp broken with ⟨_, rfl⟩ | ⟨n, layer, _, rfl⟩
  · exact .here content.isWritable rfl
  · obtain rfl := layer_eq_scalar_iff.mp layer
    exact .here content.isWritable rfl

theorem RunsAlong.listOf (runs : schema.RunsAlong levels) : (listOf schema).RunsAlong (.position :: levels) := by
  intro path document content v broken
  rcases mem_violations_listOf.mp broken with ⟨_, rfl⟩ | ⟨items, index, item, layer, placed, inside⟩
  · exact .here content.isWritable rfl
  · obtain rfl := layer_eq_list_iff.mp layer
    have inner : Json.Content item := content.items item (List.mem_of_getElem? placed)
    exact (runs _ item inner v inside).below_position

theorem RunsAlong.record (runs : ∀ field ∈ known, field.2.RunsAlong levels) :
    (record known).RunsAlong (.name :: levels) := by
  intro path document content v broken
  rcases mem_violations_record.mp broken with ⟨_, rfl⟩ | ⟨fields, layer, absent | found⟩
  · exact .here content.isWritable rfl
  · obtain ⟨name, _, rfl⟩ := absent
    exact .here rfl rfl
  · obtain ⟨name, schema, part, member, given, inside⟩ := found
    obtain rfl := layer_eq_object_iff.mp layer
    obtain ⟨named, distinct, all⟩ := content.fields
    have inner : Json.Content part := all _ ((Fields.get?_eq_some_iff named distinct).mp given)
    exact (runs _ member _ part inner v inside).below_name

theorem RunsAlong.obstacle?_eq_none (runs : schema.RunsAlong levels) {document : Value}
    (content : Json.Content document) : Violation.obstacle? (schema.violations [] document) = none := by
  have along : ∀ v ∈ schema.violations [] document, Along levels v.path := by
    intro v broken
    obtain ⟨_, below, place, run⟩ := runs [] document content v broken
    rw [place]
    exact run
  apply Violation.obstacle?_eq_none
  · intro v broken
    exact (runs [] document content v broken).1
  · intro v broken w broken'
    exact Violation.clash?_eq_none (along v broken) (along w broken')

end Schema

end CompilerAdapter
