import CompilerAdapter.Proofs.Path.NormalForm
import CompilerAdapter.Proofs.Wildcard.SpecLists

/-!
# Specs in normal form

A spec says what its components say, wherever they came from: `components_normal_form`.
-/

namespace CompilerAdapter.Wildcard

theorem specRegex?_congr {usage : Usage} {base base' spec spec' : String}
    (same : Path.components spec base = Path.components spec' base') :
    specRegex? usage base spec = specRegex? usage base' spec' := by
  have split : Path.split (Path.resolve spec.toList base.toList) = Path.split (Path.resolve spec'.toList base'.toList) :=
    (List.map_inj_right fun _ _ h => String.ofList_injective h).mp same
  unfold specRegex?
  rw [split]

theorem specRegex?_of_nil {usage : Usage} {base spec : String} (none : Path.components spec base = []) :
    specRegex? usage base spec = Option.none := by
  have split : Path.split (Path.resolve spec.toList base.toList) = [] := List.map_eq_nil_iff.mp none
  unfold specRegex?
  rw [split]
  rfl

theorem pattern?_congr {usage : Usage} {base base' : String} {specs specs' : List String}
    (same : expressions usage base specs = expressions usage base' specs') :
    pattern? usage base specs = pattern? usage base' specs' := by
  unfold expressions at same
  unfold pattern?
  rw [same]

theorem expressions_single {usage : Usage} {base spec : String} (filled : spec ≠ "") :
    expressions usage base [spec] = (specRegex? usage base spec).toList := by
  unfold expressions
  cases made : specRegex? usage base spec <;> simp [filled, made]

theorem expressions_empty {usage : Usage} {base : String} : expressions usage base [""] = [] := by
  unfold expressions
  simp

/-- The components of a spec below a base are in normal form, and the text that they make with slashes between them says
what the spec says. -/
theorem components_normal_form (base spec : String) : ∃ root entries,
    Path.components spec base = root ++ entries ∧
    root.length = (if Path.IsRelative spec ∧ Path.IsRelative base then 0 else 1) ∧
    (∀ entry ∈ root, entry = "" ∨ Path.IsDrive entry) ∧ (∀ entry ∈ entries, Path.IsName entry) ∧
    Path.OnlyInFront ".." entries ∧
    (Path.components spec base ≠ [""] →
      (∀ first ∈ (Path.components spec base).head?, ¬ Path.ContinuesDrive first.toList) →
        Path.components ("/".intercalate (Path.components spec base)) "" = Path.components spec base ∧
        ∀ usage, spec ≠ "" →
          pattern? usage "" ["/".intercalate (Path.components spec base)] = pattern? usage base [spec]) := by
  obtain ⟨root, entries, whole, count, start, named, front⟩ := Path.components_shape base spec
  refine ⟨root, entries, whole, count, start, named, front, fun bare short => ?_⟩
  have again := Path.components_text bare short
  refine ⟨again, fun usage filled => pattern?_congr ?_⟩
  rw [expressions_single filled, ← specRegex?_congr again]
  by_cases empty : "/".intercalate (Path.components spec base) = ""
  · rw [empty, expressions_empty, specRegex?_of_nil (by decide)]
    rfl
  · rw [expressions_single empty]

theorem components_normal_form_climbing :
    Path.components "..\\..\\../lib/./**//x/../*.ts" "/app/src/" ≠ [""] ∧
    (∀ first ∈ (Path.components "..\\..\\../lib/./**//x/../*.ts" "/app/src/").head?,
      ¬ Path.ContinuesDrive first.toList) ∧
    Path.components "..\\..\\../lib/./**//x/../*.ts" "/app/src/" = ["", "..", "lib", "**", "*.ts"] ∧
    Path.components "/../lib/**/*.ts" "" = ["", "..", "lib", "**", "*.ts"] ∧
    pattern? .files "" ["/../lib/**/*.ts"] = pattern? .files "/app/src/" ["..\\..\\../lib/./**//x/../*.ts"] := by
  have resolved : Path.components "..\\..\\../lib/./**//x/../*.ts" "/app/src/" = ["", "..", "lib", "**", "*.ts"] := by
    decide
  obtain ⟨_, _, _, _, _, _, _, again⟩ :=
    components_normal_form "/app/src/" "..\\..\\../lib/./**//x/../*.ts"
  rw [resolved] at again ⊢
  have bare : ["", "..", "lib", "**", "*.ts"] ≠ [""] := by decide
  have short : ∀ first ∈ ["", "..", "lib", "**", "*.ts"].head?, ¬ Path.ContinuesDrive first.toList := by
    rintro first start ⟨letter, rest, -, -, text⟩
    cases start
    cases text
  have text : "/".intercalate ["", "..", "lib", "**", "*.ts"] = "/../lib/**/*.ts" := by decide
  rw [text] at again
  exact ⟨bare, short, rfl, (again bare short).1, (again bare short).2 .files (by decide)⟩

end CompilerAdapter.Wildcard
