import CompilerAdapter.Proofs.Path.NormalForm
import CompilerAdapter.Proofs.Wildcard.Matching

/-!
# A leading `**`

In front of an excluding spec, `**` lets directories stand in front of what the spec excludes: `leading_run_test_iff`.
They make up a text that is not empty, so that a path right below the root is left out: `leading_run_misses_root`.
-/

namespace CompilerAdapter.Wildcard

variable {names : List (List Char)} {spec : String} {p q : Pattern}

/-! ### The spec behind a `**` -/

theorem isRelative_run : Path.IsRelative ("**/" ++ spec) := by
  unfold Path.IsRelative
  rw [String.toList_append]
  refine ⟨?_, ?_⟩
  · intro c first
    obtain rfl := Option.some.inj first
    decide
  · intro letter rest start
    obtain ⟨rfl, -⟩ := List.cons.inj start
    decide

theorem components_of_relative (relative : Path.IsRelative spec) :
    components "" spec = Path.walk [] (spec.toList.map Path.forwardSlash) := by
  unfold components
  rw [Path.components_of_relative relative, List.map_map]
  simp [Function.comp_def]

theorem components_run (relative : Path.IsRelative spec) (down : (components "" spec).head? ≠ some Path.parent) :
    components "" ("**/" ++ spec) = ['*', '*'] :: components "" spec := by
  rw [components_of_relative relative] at down ⊢
  have plain : Path.parent ∉ Path.walk [] (spec.toList.map Path.forwardSlash) := Path.onlyInFront_walk.not_mem down
  have start : ("**/" ++ spec).toList.map Path.forwardSlash =
      ['*', '*'] ++ '/' :: spec.toList.map Path.forwardSlash := by
    rw [String.toList_append, List.map_append]
    rfl
  rw [components_of_relative isRelative_run, start, Path.walk_append_slash, Path.walk_eq_foldl,
    Path.foldl_push_of_plain (fun _ member => (Path.mem_walk member).2) plain]
  rfl

theorem isSome_namesRegex? {usage : Usage} {written recursive : Bool} (single : ∀ name ∈ names, name ≠ ['*', '*']) :
    (namesRegex? usage written recursive names).isSome = true := by
  induction names generalizing written with
  | nil => rfl
  | cons name rest ih =>
    rw [List.forall_mem_cons] at single
    unfold namesRegex?
    rw [if_neg single.1, Option.isSome_map]
    exact ih single.2

theorem exists_pattern?_run (relative : Path.IsRelative spec)
    (single : ∀ name ∈ components "" spec, name ≠ ['*', '*'])
    (down : (components "" spec).head? ≠ some Path.parent) :
    ∃ q, pattern? .exclude "" ["**/" ++ spec] = some q := by
  have filled : "**/" ++ spec ≠ "" := by
    intro empty
    have text := congrArg String.toList empty
    rw [String.toList_append] at text
    cases text
  refine exists_pattern?_iff.mpr ⟨filled, exists_specRegex?_iff.mpr ?_⟩
  rw [components_run relative down]
  refine ⟨List.cons_ne_nil _ _, fun including => absurd rfl including, ?_⟩
  unfold namesRegex?
  rw [if_pos rfl, if_neg (by decide), Option.isSome_map]
  exact isSome_namesRegex? single

/-! ### What it excludes -/

/-- What a `**` adds is what has a text in front of it that is not empty, with a slash in between. -/
theorem takes_run_iff {name s : List Char} (single : name ≠ ['*', '*']) :
    (∃ rest, Takes .exclude (['*', '*'] :: name :: names) (splitAtEach '/' s) rest) ↔
      (∃ rest, Takes .exclude (name :: names) (splitAtEach '/' s) rest) ∨
        ∃ front back, front ≠ [] ∧ s = front ++ '/' :: back ∧
          ∃ rest, Takes .exclude (name :: names) (splitAtEach '/' back) rest := by
  constructor
  · intro found
    obtain ⟨rest, takes⟩ := found
    obtain ⟨taken, parts, parted, run, takes⟩ := takes_directories.mp takes
    cases taken with
    | nil =>
      rw [List.nil_append] at parted
      exact .inl ⟨rest, parted ▸ takes⟩
    | cons first others =>
      obtain ⟨part, later, rfl, piece, behind⟩ := (takes_component single).mp takes
      have clean : Apart '/' (part :: later) := by
        have apart : Apart '/' (splitAtEach '/' s) := apart_splitAtEach s
        rw [parted, apart_append] at apart
        exact apart.2
      have whole : led '/' (splitAtEach '/' s) = '/' :: s := led_splitAtEach s
      rw [parted, led_append, led_cons, led_cons] at whole
      refine .inr ⟨first ++ led '/' others, part ++ led '/' later, ?_, (List.cons.inj whole).2.symm, rest, ?_⟩
      · -- The only parts that make up no text are a single empty one, which a run does not take.
        intro empty
        obtain ⟨rfl, ended⟩ := List.append_eq_nil_iff.mp empty
        cases others with
        | nil => exact run rfl
        | cons next more => cases ended
      · rwa [splitAtEach_led clean]
  · intro found
    rcases found with ⟨rest, takes⟩ | ⟨front, back, filled, rfl, rest, takes⟩
    · exact ⟨rest, takes_directories.mpr ⟨[], _, rfl, runTakes_nil, takes⟩⟩
    · rw [splitAtEach_append_cons]
      refine ⟨rest, takes_directories.mpr ⟨_, _, rfl, ?_, takes⟩⟩
      exact fun empty => filled (splitAtEach_eq_empty.mp empty)

/-- With a `**` in front, a spec excludes what it excludes, and that with any text and a slash in front. -/
theorem leading_run_test_iff (relative : Path.IsRelative spec)
    (single : ∀ name ∈ components "" spec, name ≠ ['*', '*'])
    (down : (components "" spec).head? ≠ some Path.parent) (made : pattern? .exclude "" [spec] = some p)
    (made' : pattern? .exclude "" ["**/" ++ spec] = some q) {path : String} (line : '\n' ∉ path.toList) :
    q.test (comparison true) path.toList = true ↔ p.test (comparison true) path.toList = true ∨
      ∃ front back : String, front ≠ "" ∧ path = front ++ "/" ++ back ∧
        p.test (comparison true) back.toList = true := by
  have excluded : ∀ s : String, '\n' ∉ s.toList → (p.test (comparison true) s.toList = true ↔
      ∃ rest, Takes .exclude (components "" spec) (splitAtEach '/' s.toList) rest) := by
    intro s line
    rw [test_iff_takes (by decide) made line]
    simp
  have filled : components "" spec ≠ [] := by
    obtain ⟨r, expressed, _⟩ := pattern?_single made
    exact (specRegex?_eq_some expressed).1
  rw [test_iff_takes (by decide) made' line, components_run relative down, excluded path line]
  obtain ⟨name, names, split⟩ := List.exists_cons_of_ne_nil filled
  rw [split] at single excluded ⊢
  simp only [ne_eq, not_true_eq_false, false_implies, true_and]
  rw [takes_run_iff (single name List.mem_cons_self)]
  apply or_congr_right
  constructor
  · intro found
    obtain ⟨front, back, nonempty, whole, takes⟩ := found
    have line' : '\n' ∉ back := fun member => line (whole ▸ by simp [member])
    refine ⟨String.ofList front, String.ofList back, ?_, ?_, (excluded _ ?_).mpr ?_⟩
    · exact fun empty => nonempty (String.ofList_injective empty)
    · apply String.toList_injective
      simp [whole]
    · rwa [String.toList_ofList]
    · rwa [String.toList_ofList]
  · intro found
    obtain ⟨front, back, nonempty, rfl, tested⟩ := found
    have line' : '\n' ∉ back.toList := fun member => line (by simp [member])
    exact ⟨front.toList, back.toList, by simpa using nonempty, by simp, (excluded back line').mp tested⟩

theorem below_root {path front back : String} (filled : front ≠ "") (whole : "/" ++ path = front ++ "/" ++ back) :
    ∃ above, front = "/" ++ above ∧ path = above ++ "/" ++ back := by
  cases start : front.toList with
  | nil => exact absurd (String.toList_eq_nil_iff.mp start) filled
  | cons c above =>
    have text : '/' :: path.toList = c :: (above ++ '/' :: back.toList) := by
      simpa [start] using congrArg String.toList whole
    obtain ⟨rfl, rest⟩ := List.cons.inj text
    refine ⟨String.ofList above, ?_, ?_⟩
    · apply String.toList_injective
      simp [start]
    · apply String.toList_injective
      simp [rest]

/-- A spec with a `**` in front excludes what the spec excludes, from any directory but the root. What the spec excludes
is excluded from the root if the spec itself says so, or if it is excluded from a directory in the root. -/
theorem leading_run_adds_directories (relative : Path.IsRelative spec)
    (single : ∀ name ∈ components "" spec, name ≠ ['*', '*'])
    (down : (components "" spec).head? ≠ some ['.', '.']) (made : pattern? .exclude "" [spec] = some p) :
    ∃ q, pattern? .exclude "" ["**/" ++ spec] = some q ∧
      ∀ path : String, '\n' ∉ path.toList → p.test (comparison true) path.toList = true →
        q.test (comparison true) path.toList = true ∧
        (∀ directory : String, '\n' ∉ directory.toList → directory ≠ "" →
          q.test (comparison true) (directory ++ "/" ++ path).toList = true) ∧
        (q.test (comparison true) ("/" ++ path).toList = true ↔
          p.test (comparison true) ("/" ++ path).toList = true ∨
            ∃ front back : String, path = front ++ "/" ++ back ∧ p.test (comparison true) back.toList = true) := by
  obtain ⟨q, made'⟩ := exists_pattern?_run relative single down
  refine ⟨q, made', fun path line tested => ?_⟩
  have excluded := fun {s : String} (line : '\n' ∉ s.toList) =>
    leading_run_test_iff relative single down made made' line
  refine ⟨(excluded line).mpr (.inl tested), ?_, ?_⟩
  · intro directory line' filled
    have lines : '\n' ∉ (directory ++ "/" ++ path).toList := by simp [line, line']
    exact (excluded lines).mpr (.inr ⟨directory, path, filled, rfl, tested⟩)
  · have lines : '\n' ∉ ("/" ++ path).toList := by simp [line]
    rw [excluded lines]
    apply or_congr_right
    constructor
    · intro found
      obtain ⟨front, back, filled, whole, behind⟩ := found
      obtain ⟨front, rfl, rfl⟩ := below_root filled whole
      exact ⟨front, back, rfl, behind⟩
    · intro found
      obtain ⟨front, back, rfl, behind⟩ := found
      exact ⟨"/" ++ front, back, by simp, by simp [String.append_assoc], behind⟩

theorem leading_run_adds_directories_star : Path.IsRelative "li?\\./t*t" ∧
    (∀ name ∈ components "" "li?\\./t*t", name ≠ ['*', '*']) ∧
    (components "" "li?\\./t*t").head? ≠ some ['.', '.'] ∧
    ∃ p q, pattern? .exclude "" ["li?\\./t*t"] = some p ∧ pattern? .exclude "" ["**/" ++ "li?\\./t*t"] = some q ∧
      '\n' ∉ "lib/test/a.ts".toList ∧ p.test (comparison true) "lib/test/a.ts".toList = true ∧
      q.test (comparison true) "lib/test/a.ts".toList = true ∧
      '\n' ∉ "/".toList ∧ q.test (comparison true) ("/" ++ "/" ++ "lib/test/a.ts").toList = true ∧
      ¬ q.test (comparison true) ("/" ++ "lib/test/a.ts").toList = true := by
  have relative : Path.IsRelative "li?\\./t*t" := by decide
  have single : ∀ name ∈ components "" "li?\\./t*t", name ≠ ['*', '*'] := by decide
  have down : (components "" "li?\\./t*t").head? ≠ some ['.', '.'] := by decide
  have line : '\n' ∉ "lib/test/a.ts".toList := by decide
  have line' : '\n' ∉ "/".toList := by decide
  obtain ⟨p, q, made, made', tested, refused⟩ : ∃ p q, pattern? .exclude "" ["li?\\./t*t"] = some p ∧
      pattern? .exclude "" ["**/" ++ "li?\\./t*t"] = some q ∧
      p.test (comparison true) "lib/test/a.ts".toList = true ∧
      ¬ q.test (comparison true) ("/" ++ "lib/test/a.ts").toList = true :=
    ⟨_, _, rfl, rfl, by with_unfolding_all decide, by with_unfolding_all decide⟩
  obtain ⟨_, made'', extended⟩ := leading_run_adds_directories relative single down made
  obtain rfl := Option.some.inj (made'.symm.trans made'')
  obtain ⟨kept, below, _⟩ := extended "lib/test/a.ts" line tested
  exact ⟨relative, single, down, p, q, made, made', line, tested, kept, line', below "/" line' (by decide), refused⟩

/-- The text that stands in front may not be empty: a path right below the root is left out. -/
theorem leading_run_misses_root : Path.IsRelative "test" ∧ (∀ name ∈ components "" "test", name ≠ ['*', '*']) ∧
    (components "" "test").head? ≠ some ['.', '.'] ∧
    ∃ p q, pattern? .exclude "" ["test"] = some p ∧ pattern? .exclude "" ["**/" ++ "test"] = some q ∧
      '\n' ∉ "test".toList ∧ p.test (comparison true) "test".toList = true ∧
      '\n' ∉ "".toList ∧ ¬ q.test (comparison true) ("" ++ "/" ++ "test").toList = true :=
  ⟨by decide, by decide, by decide, _, _, rfl, rfl, by decide, by decide, by decide, by with_unfolding_all decide⟩

end CompilerAdapter.Wildcard
