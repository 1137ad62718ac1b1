import CompilerAdapter.Proofs.Path.Components
import CompilerAdapter.Proofs.Wildcard.Alignment
import CompilerAdapter.Wildcard.Pattern

/-!
# What the pattern of a wildcard matches

The pattern of a single spec matches a path on one line exactly if the components of the spec take its parts:
`exclude_test_iff` for paths that are excluded, `files_test_iff` for files and `directories_test_iff` for the directories
on the way to them.
-/

namespace CompilerAdapter.Wildcard
open Regex

variable {usage : Usage} {base spec : String} {p : Pattern}

theorem components_eq (base spec : String) :
    components base spec = Path.split (Path.resolve spec.toList base.toList) := by
  simp [components, Path.components, Function.comp_def]

theorem apart_components (base spec : String) : Apart '/' (components base spec) := by
  rw [components_eq]
  exact Path.apart_split _

theorem specRegex?_eq_some {r : Regex} (h : specRegex? usage base spec = some r) :
    components base spec ≠ [] ∧ (usage ≠ .exclude → (components base spec).getLast? ≠ some ['*', '*']) ∧
      namesRegex? usage false false (components base spec) = some r := by
  rw [components_eq]
  unfold specRegex? at h
  dsimp only at h
  split at h
  · exact absurd h (by simp)
  · rename_i refused
    simp only [List.isEmpty_iff, not_or, not_and] at refused
    exact ⟨refused.1, refused.2, h⟩

theorem pattern?_single (h : pattern? usage base [spec] = some p) :
    ∃ r, specRegex? usage base spec = some r ∧ p = ⟨.seq (.group (.group r)) (terminator usage)⟩ := by
  unfold pattern? at h
  by_cases empty : spec.isEmpty
  · simp [empty] at h
  · cases made : specRegex? usage base spec with
    | none => simp [empty, made] at h
    | some r =>
      refine ⟨r, rfl, ?_⟩
      simpa [empty, made, Regex.choice, eq_comm] using h

/-! ### Specs that have a pattern -/

theorem namesRegex?_isSome {usage' : Usage} {names : List (List Char)} {written written' recursive : Bool} :
    (namesRegex? usage written recursive names).isSome = (namesRegex? usage' written' recursive names).isSome := by
  induction names generalizing written written' recursive with
  | nil => rfl
  | cons name names ih =>
    unfold namesRegex?
    split
    · cases recursive
      · simpa using ih
      · rfl
    · simpa using ih

theorem exists_specRegex?_iff : (∃ r, specRegex? usage base spec = some r) ↔
    components base spec ≠ [] ∧ (usage ≠ .exclude → (components base spec).getLast? ≠ some ['*', '*']) ∧
      (namesRegex? usage false false (components base spec)).isSome = true := by
  constructor
  · rintro ⟨r, made⟩
    obtain ⟨filled, last, named⟩ := specRegex?_eq_some made
    exact ⟨filled, last, by rw [named]; rfl⟩
  · rintro ⟨filled, last, named⟩
    obtain ⟨r, made⟩ := Option.isSome_iff_exists.mp named
    rw [components_eq] at filled last made
    refine ⟨r, ?_⟩
    unfold specRegex?
    dsimp only
    rw [if_neg, made]
    rintro (empty | ⟨including, ended⟩)
    · exact filled (List.isEmpty_iff.mp empty)
    · exact last including ended

theorem exists_pattern?_iff : (∃ p, pattern? usage base [spec] = some p) ↔
    spec ≠ "" ∧ ∃ r, specRegex? usage base spec = some r := by
  unfold pattern?
  by_cases empty : spec = ""
  · simp [empty]
  · cases made : specRegex? usage base spec <;> simp [empty, made]

/-- A spec with a pattern has one for every other usage too, unless that one refuses a `**` at its end. -/
theorem exists_pattern?_of_usage (usage' : Usage) (h : pattern? usage base [spec] = some p)
    (wider : usage' ≠ .exclude → usage ≠ .exclude) : ∃ q, pattern? usage' base [spec] = some q := by
  obtain ⟨filled, made⟩ := exists_pattern?_iff.mp ⟨p, h⟩
  obtain ⟨some, last, named⟩ := exists_specRegex?_iff.mp made
  refine exists_pattern?_iff.mpr ⟨filled, exists_specRegex?_iff.mpr ⟨some, ?_, ?_⟩⟩
  · exact fun including => last (wider including)
  · exact namesRegex?_isSome.trans named

/-! ### Matching -/

theorem terminator_exclude_iff {t : List Char} (line : '\n' ∉ t) :
    (∃ u, (terminator .exclude).Consumes t u) ↔ t = [] ∨ ∃ u, t = '/' :: u := by
  constructor
  · intro found
    obtain ⟨u, ⟨_, ended | ended⟩ | sep⟩ := found
    · exact .inl ended
    · simp [ended] at line
    · exact .inr ⟨u, consumes_slash.mp sep⟩
  · intro found
    rcases found with rfl | ⟨u, rfl⟩
    · exact ⟨[], .inl ⟨rfl, .inl rfl⟩⟩
    · exact ⟨u, .inr (consumes_slash.mpr rfl)⟩

theorem terminator_iff (including : usage ≠ .exclude) {t : List Char} (line : '\n' ∉ t) :
    (∃ u, (terminator usage).Consumes t u) ↔ t = [] := by
  have ends : terminator usage = .finish := by
    cases usage <;> first | rfl | exact absurd rfl including
  rw [ends]
  constructor
  · intro found
    obtain ⟨u, _, ended | ended⟩ := found
    · exact ended
    · simp [ended] at line
  · rintro rfl
    exact ⟨[], rfl, .inl rfl⟩

/-- A pattern matches if the expression of its spec consumes the text up to parts that may be left. -/
theorem test_iff_consumes (h : pattern? usage base [spec] = some p) :
    ∃ r, specRegex? usage base spec = some r ∧ ∀ s, '\n' ∉ s → (p.test (comparison true) s = true ↔
      ∃ rest, Apart '/' rest ∧ (usage ≠ .exclude → rest = []) ∧ r.Consumes s (led '/' rest)) := by
  obtain ⟨r, made, rfl⟩ := pattern?_single h
  refine ⟨r, made, fun s line => ?_⟩
  have searched : Pattern.test ⟨.seq (.group (.group r)) (terminator usage)⟩ (comparison true) s = true ↔
      ∃ t, r.Consumes s t ∧ ∃ u, (terminator usage).Consumes t u := by
    refine (run_eq_true_iff (· == ·) _ _ s).trans ?_
    constructor
    · intro found
      obtain ⟨u, ⟨t, first, later⟩, _⟩ := found
      exact ⟨t, first, u, later⟩
    · intro found
      obtain ⟨t, first, u, later⟩ := found
      exact ⟨u, ⟨t, first, later⟩, rfl⟩
  rw [searched]
  constructor
  · intro found
    obtain ⟨t, consumed, closed⟩ := found
    have line' : '\n' ∉ t := fun member => line ((suffix_of_matches r consumed).subset member)
    by_cases excludes : usage = .exclude
    · subst excludes
      obtain ⟨rest, apart, rfl⟩ := exists_led_of_boundary ((terminator_exclude_iff line').mp closed)
      exact ⟨rest, apart, fun including => absurd rfl including, consumed⟩
    · obtain rfl := (terminator_iff excludes line').mp closed
      exact ⟨[], apart_nil, fun _ => rfl, consumed⟩
  · intro found
    obtain ⟨rest, apart, all, consumed⟩ := found
    have line' : '\n' ∉ led '/' rest := fun member => line ((suffix_of_matches r consumed).subset member)
    refine ⟨led '/' rest, consumed, ?_⟩
    by_cases excludes : usage = .exclude
    · subst excludes
      exact (terminator_exclude_iff line').mpr (led_boundary rest)
    · rw [all excludes]
      exact (terminator_iff excludes (by simp)).mpr rfl

/-! ### Main statements -/

theorem consumes_everything {s t : List Char} (line : '\n' ∉ s) : everything.Consumes s t ↔ t <:+ s := by
  rw [everything, consumes_many]
  constructor
  · intro found
    obtain ⟨u, rfl, _⟩ := found
    exact List.suffix_append u t
  · intro found
    obtain ⟨u, rfl⟩ := found
    exact ⟨u, rfl, fun c member => passes_any.mpr fun same => line (List.mem_append_left _ (same ▸ member))⟩

/-- The components of a spec take the first parts of a path that is excluded, and all parts of a file. -/
theorem test_iff_takes (entire : usage ≠ .directories) (h : pattern? usage base [spec] = some p) {path : String}
    (line : '\n' ∉ path.toList) : p.test (comparison true) path.toList = true ↔
      ∃ rest, (usage ≠ .exclude → rest = []) ∧
        Takes usage (components base spec) (splitAtEach '/' path.toList) rest := by
  obtain ⟨r, made, tested⟩ := test_iff_consumes h
  obtain ⟨filled, last, named⟩ := specRegex?_eq_some made
  rw [tested _ line]
  by_cases lone : components base spec = [['*', '*']]
  · -- On its own, `**` becomes an expression that takes everything up to the end of the line.
    have excludes : usage = .exclude := Decidable.byContradiction fun including => last including (by simp [lone])
    subst excludes
    rw [lone] at named ⊢
    obtain ⟨_, tail, later, rfl⟩ := namesRegex?_directories named
    obtain rfl := Option.some.inj later
    have all : Takes .exclude [['*', '*']] ([] ++ splitAtEach '/' path.toList) (splitAtEach '/' path.toList) :=
      .directories runTakes_nil .nil
    have consumed := (consumes_everything line).mpr (List.nil_suffix (l := path.toList))
    exact iff_of_true ⟨[], apart_nil, fun _ => rfl, [], consumed, rfl⟩ ⟨_, nofun, all⟩
  · constructor
    · intro found
      obtain ⟨rest, apart, all, consumed⟩ := found
      exact ⟨rest, all, (consumes_path entire named filled lone (apart_components base spec) apart line).mp consumed⟩
    · intro found
      obtain ⟨rest, all, takes⟩ := found
      have apart : Apart '/' rest := fun part member =>
        apart_splitAtEach path.toList part (takes.suffix.subset member)
      have consumed := (consumes_path entire named filled lone (apart_components base spec) apart line).mpr takes
      exact ⟨rest, apart, all, consumed⟩

/-- A path is excluded by a spec if the components of the spec take its first parts. -/
theorem exclude_test_iff (h : pattern? .exclude base [spec] = some p) {path : String} (line : '\n' ∉ path.toList) :
    p.test (comparison true) path.toList = true ↔
      ∃ rest, Takes .exclude (components base spec) (splitAtEach '/' path.toList) rest := by
  rw [test_iff_takes (by decide) h line]
  simp

theorem exclude_test_iff_directories : ∃ p, pattern? .exclude "/app" ["src/**/t?st*"] = some p ∧
    '\n' ∉ "/app/src/a/b/test-1/x.ts".toList ∧ p.test (comparison true) "/app/src/a/b/test-1/x.ts".toList = true ∧
    ∃ rest, Takes .exclude (components "/app" "src/**/t?st*") (splitAtEach '/' "/app/src/a/b/test-1/x.ts".toList) rest :=
  have line : '\n' ∉ "/app/src/a/b/test-1/x.ts".toList := by decide
  have tested : Pattern.test _ (comparison true) "/app/src/a/b/test-1/x.ts".toList = true := by
    with_unfolding_all decide
  ⟨_, rfl, line, tested, (exclude_test_iff rfl line).mp tested⟩

/-- A file is selected by a spec if the components of the spec take all its parts. -/
theorem files_test_iff (h : pattern? .files base [spec] = some p) {path : String} (line : '\n' ∉ path.toList) :
    p.test (comparison true) path.toList = true ↔
      Takes .files (components base spec) (splitAtEach '/' path.toList) [] := by
  rw [test_iff_takes (by decide) h line]
  simp

theorem files_test_iff_minified : ∃ p, pattern? .files "c:" ["lib/**/?at*.js"] = some p ∧
    '\n' ∉ "c:/lib/x.y/cat.min.js.js".toList ∧
    Takes .files (components "c:" "lib/**/?at*.js") (splitAtEach '/' "c:/lib/x.y/cat.min.js.js".toList) [] ∧
    '\n' ∉ "c:/lib/x.y/cat.min.js".toList ∧
    ¬ Takes .files (components "c:" "lib/**/?at*.js") (splitAtEach '/' "c:/lib/x.y/cat.min.js".toList) [] :=
  have line : '\n' ∉ "c:/lib/x.y/cat.min.js.js".toList := by decide
  have tested : Pattern.test _ (comparison true) "c:/lib/x.y/cat.min.js.js".toList = true := by
    with_unfolding_all decide
  have line' : '\n' ∉ "c:/lib/x.y/cat.min.js".toList := by decide
  have refused : ¬ Pattern.test _ (comparison true) "c:/lib/x.y/cat.min.js".toList = true := by
    with_unfolding_all decide
  ⟨_, rfl, line, (files_test_iff rfl line).mp tested, line', fun takes => refused ((files_test_iff rfl line').mpr takes)⟩

/-! ### Directories on the way to files -/

theorem covers_directories {front names : List (List Char)} : Covers .directories front names ↔ front <+: names := by
  rw [Covers, if_pos rfl]

/-- A run in front of a last empty part: the path ends in a slash, or is empty. -/
theorem splitAtEach_eq_run {s : List Char} {taken : List (List Char)} (apart : Apart '/' taken) :
    splitAtEach '/' s = taken ++ [[]] ↔ s = trailed '/' taken := by
  constructor
  · intro parted
    have leads : '/' :: s = led '/' (taken ++ [[]]) := parted ▸ (led_splitAtEach s).symm
    rw [led_append, led_cons, led_append_cons] at leads
    simpa using (List.cons.inj leads).2
  · intro whole
    have parted := splitAtEach_trailed apart []
    simpa [whole, splitAtEach] using parted

theorem consumes_iff_of_leading {next : List Char} {names : List (List Char)} {r : Regex}
    (named : namesRegex? .directories false false (['*', '*'] :: next :: names) = some r)
    (clean : Apart '/' (['*', '*'] :: next :: names)) {s : List Char} (line : '\n' ∉ s) :
    r.Consumes s (led '/' []) ↔ TakesDirectory (['*', '*'] :: next :: names) (splitAtEach '/' s) := by
  have single : next ≠ ['*', '*'] := next_ne_of_namesRegex? named
  rw [consumes_leading named (apart_cons.mp clean).2 apart_nil line]
  constructor
  · intro taken
    rcases taken with ⟨_, taken, apart, run, ended⟩ | ⟨front, covers, takes⟩
    · exact .inr ⟨taken, .inr rfl, run, (splitAtEach_eq_run apart).mpr (by simpa using ended)⟩
    · refine .inl ⟨['*', '*'] :: next :: front, ?_, ⟨next, by simp, single⟩, takes⟩
      simpa using covers_directories.mp covers
  · intro taken
    rcases taken with ⟨front, covers, ⟨one, member, other⟩, takes⟩ | ⟨taken, _, run, parted⟩
    · rcases List.prefix_cons_iff.mp covers with rfl | ⟨front, rfl, behind⟩
      · simp at member
      · rcases List.prefix_cons_iff.mp behind with rfl | ⟨front, rfl, later⟩
        · exact absurd (List.mem_singleton.mp member) other
        · exact .inr ⟨front, covers_directories.mpr later, takes⟩
    · have apart : Apart '/' taken := by
        have cut : Apart '/' (splitAtEach '/' s) := apart_splitAtEach s
        rw [parted, apart_append] at cut
        exact cut.1
      exact .inl ⟨rfl, taken, apart, run, by simpa using (splitAtEach_eq_run apart).mp parted⟩

theorem consumes_iff_of_first {name : List Char} {names : List (List Char)} {r : Regex} (star : name ≠ ['*', '*'])
    (named : namesRegex? .directories false false (name :: names) = some r) (clean : Apart '/' (name :: names))
    {s : List Char} (line : '\n' ∉ s) :
    r.Consumes s (led '/' []) ↔ TakesDirectory (name :: names) (splitAtEach '/' s) := by
  rw [consumes_first star named clean apart_nil line]
  constructor
  · intro taken
    rcases taken with ⟨_, ended⟩ | ⟨front, covers, takes⟩
    · exact .inr ⟨[], .inl rfl, runTakes_nil, splitAtEach_eq_empty.mpr ended⟩
    · refine .inl ⟨name :: front, ?_, ⟨name, by simp, star⟩, takes⟩
      simpa using covers_directories.mp covers
  · intro taken
    rcases taken with ⟨front, covers, ⟨one, member, other⟩, takes⟩ | ⟨taken, lead, run, parted⟩
    · rcases List.prefix_cons_iff.mp covers with rfl | ⟨front, rfl, later⟩
      · simp at member
      · exact .inr ⟨front, covers_directories.mpr later, takes⟩
    · rcases lead with rfl | lead
      · exact .inl ⟨rfl, splitAtEach_eq_empty.mp parted⟩
      · exact absurd (Option.some.inj lead) star

theorem directories_test_iff (h : pattern? .directories base [spec] = some p) {path : String}
    (line : '\n' ∉ path.toList) : p.test (comparison true) path.toList = true ↔
      TakesDirectory (components base spec) (splitAtEach '/' path.toList) := by
  obtain ⟨r, made, tested⟩ := test_iff_consumes h
  obtain ⟨filled, last, named⟩ := specRegex?_eq_some made
  have clean := apart_components base spec
  have whole : p.test (comparison true) path.toList = true ↔ r.Consumes path.toList (led '/' []) := by
    rw [tested _ line]
    constructor
    · intro found
      obtain ⟨rest, _, all, consumed⟩ := found
      rwa [all (by decide)] at consumed
    · exact fun consumed => ⟨[], apart_nil, fun _ => rfl, consumed⟩
  rw [whole]
  generalize components base spec = names at *
  cases names with
  | nil => exact absurd rfl filled
  | cons name names =>
    by_cases star : name = ['*', '*']
    · subst star
      cases names with
      | nil => exact absurd rfl (last (by decide))
      | cons next names => exact consumes_iff_of_leading named clean line
    · exact consumes_iff_of_first star named clean line

end CompilerAdapter.Wildcard
