import CompilerAdapter.Proofs.Wildcard.Matching

/-!
# Excluding what is selected

A spec that selects files excludes all of them when it is used to exclude: what its components take by the rules for
files, they take by the rules for exclusion (`Takes.exclude`).
-/

namespace CompilerAdapter.Wildcard

variable {usage : Usage} {base spec : String} {p : Pattern}

theorem ComponentTakes.exclude {after after' name part : List Char} (takes : ComponentTakes usage after name part) :
    ComponentTakes .exclude after' name part :=
  ⟨takes.1.relax (fun _ _ => trivial) fun visible => absurd visible (by decide), fun including => absurd rfl including⟩

theorem RunTakes.exclude {taken : List (List Char)} (run : RunTakes usage taken) : RunTakes .exclude taken := by
  -- The one run that excluding does not take is an empty name, which files do not have either.
  have filled : (∀ part ∈ taken, part ≠ [] ∧ part.head? ≠ some '.') → taken ≠ [[]] := by
    rintro visible rfl
    exact (visible [] (List.mem_singleton.mpr rfl)).1 rfl
  cases usage with
  | files => exact filled run
  | directories => exact filled run
  | exclude => exact run

theorem Takes.exclude {names parts rest : List (List Char)} (takes : Takes usage names parts rest) :
    Takes .exclude names parts rest := by
  induction takes with
  | nil => exact .nil
  | directories run _ ih => exact .directories run.exclude ih
  | component single piece _ ih => exact .component single piece.exclude ih

/-- Excluding a spec removes every file that it selects. -/
theorem exclude_covers_files (h : pattern? .files base [spec] = some p) :
    ∃ q, pattern? .exclude base [spec] = some q ∧ ∀ path : String, '\n' ∉ path.toList →
      p.test (comparison true) path.toList = true → q.test (comparison true) path.toList = true := by
  obtain ⟨q, made⟩ := exists_pattern?_of_usage .exclude h fun other => absurd rfl other
  refine ⟨q, made, fun path line selected => ?_⟩
  obtain ⟨rest, _, takes⟩ := (test_iff_takes (by decide) h line).mp selected
  exact (test_iff_takes (by decide) made line).mpr ⟨rest, nofun, takes.exclude⟩

theorem exclude_covers_files_leading_run : ∃ p, pattern? .files "" ["**/?ib/*.js"] = some p ∧
    '\n' ∉ "a/b/lib/x.js".toList ∧ p.test (comparison true) "a/b/lib/x.js".toList = true ∧
    ∃ q, pattern? .exclude "" ["**/?ib/*.js"] = some q ∧ q.test (comparison true) "a/b/lib/x.js".toList = true := by
  have line : '\n' ∉ "a/b/lib/x.js".toList := by decide
  obtain ⟨p, made⟩ : ∃ p, pattern? .files "" ["**/?ib/*.js"] = some p := ⟨_, rfl⟩
  have selected : p.test (comparison true) "a/b/lib/x.js".toList = true := by
    obtain rfl := Option.some.inj made
    with_unfolding_all decide
  obtain ⟨q, excluding, covers⟩ := exclude_covers_files made
  exact ⟨p, made, line, selected, q, excluding, covers _ line selected⟩

end CompilerAdapter.Wildcard
