import CompilerAdapter.Proofs.Wildcard.Matching

/-!
# Directories on the way to files

The components that take a file also take, from the first one on, every directory on the way to it: `Takes.front`. So
the pattern for directories matches it, unless only a leading `**` takes it. Such a directory is matched with a slash
behind it, and not on its own.
-/

namespace CompilerAdapter.Wildcard

variable {base spec : String} {p : Pattern} {names parts : List (List Char)}

/-- A file on one line that the pattern matches lies below the directory. -/
def OnTheWay (p : Pattern) (directory : String) : Prop :=
  ∃ file rest : String, file = directory ++ "/" ++ rest ∧ '\n' ∉ file.toList ∧
    p.test (comparison true) file.toList = true

/-- The first components of a wildcard, and not just a `**`, take a directory. -/
def TakesFront (names parts : List (List Char)) : Prop :=
  ∃ front, front <+: names ∧ (∃ name ∈ front, name ≠ ['*', '*']) ∧ Takes .directories front parts []

/-! ### The pattern for directories -/

theorem pattern?_directories (h : pattern? .files base [spec] = some p) :
    ∃ q, pattern? .directories base [spec] = some q :=
  exists_pattern?_of_usage .directories h fun _ => by decide

/-! ### What takes a file takes the way to it -/

theorem ComponentTakes.of_files {after after' name part : List Char} (takes : ComponentTakes .files after name part) :
    ComponentTakes .directories after' name part := by
  have including : Usage.files ≠ .exclude := by decide
  obtain ⟨taken, guarded⟩ := takes
  exact ⟨taken.relax (fun _ _ => trivial) id, fun _ => guarded including⟩

theorem Takes.front {rest : List (List Char)} (takes : Takes .files names parts rest) {way below : List (List Char)}
    (cut : parts = way ++ below) (left : rest <:+ below) :
    ∃ front, front <+: names ∧ Takes .directories front way [] := by
  induction takes generalizing way with
  | nil =>
    have none : way = [] := by
      have longer := left.length_le
      rw [cut, List.length_append] at longer
      exact List.length_eq_zero_iff.mp (by omega)
    exact ⟨[], List.nil_prefix, takes_nil.mpr none.symm⟩
  | @directories taken names parts rest run later ih =>
    rcases List.append_eq_append_iff.mp cut with ⟨more, rfl, behind⟩ | ⟨more, rfl, behind⟩
    · obtain ⟨front, first, takes⟩ := ih behind left
      exact ⟨['*', '*'] :: front, List.cons_prefix_cons.mpr ⟨rfl, first⟩, .directories run takes⟩
    · -- The cut lies in the run, of which `**` takes any part.
      have part : RunTakes .directories way := fun part member => run part (List.mem_append_left _ member)
      have takes : Takes .directories [['*', '*']] (way ++ []) [] := .directories part .nil
      rw [List.append_nil] at takes
      exact ⟨[['*', '*']], List.cons_prefix_cons.mpr ⟨rfl, List.nil_prefix⟩, takes⟩
  | @component name part names parts rest single piece later ih =>
    cases way with
    | nil => exact ⟨[], List.nil_prefix, .nil⟩
    | cons first way =>
      obtain ⟨rfl, behind⟩ := List.cons.inj cut
      obtain ⟨front, start, takes⟩ := ih behind left
      exact ⟨name :: front, List.cons_prefix_cons.mpr ⟨rfl, start⟩, .component single piece.of_files takes⟩

/-! ### Directories that are taken -/

theorem run_of_directories_only {front rest : List (List Char)} (stars : ∀ name ∈ front, name = ['*', '*'])
    (takes : Takes .directories front parts rest) : ∃ run, parts = run ++ rest ∧ RunTakes .directories run := by
  induction takes with
  | nil => exact ⟨[], rfl, runTakes_nil⟩
  | @directories taken _ _ _ run _ ih =>
    rw [List.forall_mem_cons] at stars
    obtain ⟨more, rfl, visible⟩ := ih stars.2
    refine ⟨taken ++ more, by simp, fun part member => ?_⟩
    exact (List.mem_append.mp member).elim (run part) (visible part)
  | component single _ _ =>
    rw [List.forall_mem_cons] at stars
    exact absurd stars.1 single

theorem OnTheWay.takesFront_or_run {directory : String} (way : OnTheWay p directory)
    (h : pattern? .files base [spec] = some p) : '\n' ∉ directory.toList ∧
      (TakesFront (components base spec) (splitAtEach '/' directory.toList) ∨
        (components base spec).head? = some ['*', '*'] ∧ RunTakes .directories (splitAtEach '/' directory.toList)) := by
  obtain ⟨file, rest, rfl, line, tested⟩ := way
  obtain ⟨left, all, takes⟩ := (test_iff_takes (by decide) h line).mp tested
  obtain rfl : left = [] := all (by decide)
  have cut : splitAtEach '/' (directory ++ "/" ++ rest).toList =
      splitAtEach '/' directory.toList ++ splitAtEach '/' rest.toList := by
    have whole : (directory ++ "/" ++ rest).toList = directory.toList ++ '/' :: rest.toList := by simp
    rw [whole, splitAtEach_append_cons]
  obtain ⟨front, first, taken⟩ := takes.front cut List.nil_suffix
  refine ⟨fun feed => line (by simp [feed]), ?_⟩
  by_cases only : ∀ name ∈ front, name = ['*', '*']
  · right
    obtain ⟨run, whole, visible⟩ := run_of_directories_only only taken
    rw [List.append_nil] at whole
    refine ⟨?_, whole ▸ visible⟩
    cases front with
    | nil => exact absurd (takes_nil.mp taken).symm (splitAtEach_ne_nil _)
    | cons name front =>
      obtain ⟨more, names⟩ := first
      rw [← names, only name List.mem_cons_self]
      rfl
  · left
    simp only [Classical.not_forall] at only
    obtain ⟨name, member, single⟩ := only
    exact ⟨front, first, ⟨name, member, single⟩, taken⟩

/-! ### Specs that a name starts -/

/-- A spec that does not start with `**` selects every directory on the way to a file that it selects. -/
theorem directories_match_way (h : pattern? .files base [spec] = some p)
    (first : (components base spec).head? ≠ some ['*', '*']) : ∃ q, pattern? .directories base [spec] = some q ∧
      ∀ directory, OnTheWay p directory → q.test (comparison true) directory.toList = true := by
  obtain ⟨q, made⟩ := pattern?_directories h
  refine ⟨q, made, fun directory way => ?_⟩
  obtain ⟨line, front | run⟩ := way.takesFront_or_run h
  · exact (directories_test_iff made line).mpr (.inl front)
  · exact absurd run.1 first

theorem directories_match_way_inner_run : ∃ p, pattern? .files "/app" ["src/**/?at*.ts"] = some p ∧
    (components "/app" "src/**/?at*.ts").head? ≠ some ['*', '*'] ∧ OnTheWay p "/app/src/lib" ∧
    ∃ q, pattern? .directories "/app" ["src/**/?at*.ts"] = some q ∧
      q.test (comparison true) "/app/src/lib".toList = true := by
  have first : (components "/app" "src/**/?at*.ts").head? ≠ some ['*', '*'] := by decide
  have way : ∀ p, pattern? .files "/app" ["src/**/?at*.ts"] = some p → OnTheWay p "/app/src/lib" := by
    intro p made
    obtain rfl := Option.some.inj made
    exact ⟨"/app/src/lib/x/cat.d.ts", "x/cat.d.ts", rfl, by decide, by with_unfolding_all decide⟩
  obtain ⟨q, made, matched⟩ := directories_match_way rfl first
  exact ⟨_, rfl, first, way _ rfl, q, made, matched _ (way _ rfl)⟩

/-! ### Specs that `**` starts -/

theorem exists_package_not_taken (name : List Char) :
    ∃ package ∈ packageNames, ∀ after, ¬ ComponentTakes .directories after name package := by
  obtain ⟨package, member, other⟩ : ∃ package ∈ packageNames, package ≠ name := by
    by_cases same : name = "node_modules".toList
    · exact ⟨"bower_components".toList, by decide, by rw [same]; decide⟩
    · exact ⟨"node_modules".toList, by decide, Ne.symm same⟩
  refine ⟨package, member, fun after piece => ?_⟩
  obtain ⟨taken, guarded⟩ := (componentTakes_iff (by decide)).mp piece
  by_cases wild : HasWildcard name
  · exact guarded wild member
  · exact other (taken.eq_of_plain wild)

/-- The run that a leading `**` takes may start with any visible directory. -/
theorem onTheWay_of_leading_run (lead : (components base spec).head? = some ['*', '*'])
    (h : pattern? .files base [spec] = some p) {part : List Char} (visible : IsVisible part) (single : '\n' ∉ part)
    {file : String} (line : '\n' ∉ file.toList) (tested : p.test (comparison true) file.toList = true) :
    OnTheWay p (String.ofList part) := by
  have line' : '\n' ∉ (String.ofList part ++ "/" ++ file).toList := by simp [line, single]
  refine ⟨_, file, rfl, line', (test_iff_takes (by decide) h line').mpr ?_⟩
  obtain ⟨rest, all, takes⟩ := (test_iff_takes (by decide) h line).mp tested
  obtain ⟨names, lead⟩ := List.head?_eq_some_iff.mp lead
  rw [lead] at takes ⊢
  obtain ⟨taken, later, parts, run, behind⟩ := takes_directories.mp takes
  have cut : splitAtEach '/' (String.ofList part ++ "/" ++ file).toList = (part :: taken) ++ later := by
    have split : (String.ofList part ++ "/" ++ file).toList = part ++ '/' :: file.toList := by simp
    rw [split, splitAtEach_append_cons, splitAtEach_of_not_mem visible.1, parts]
    rfl
  rw [cut]
  exact ⟨rest, all, .directories (List.forall_mem_cons.mpr ⟨visible.2, run⟩) behind⟩

/-- Behind a leading `**`, a directory on its own is left to the component that follows. -/
theorem takes_of_takesDirectory_singleton {name part : List Char} (single : name ≠ ['*', '*']) (filled : part ≠ [])
    (selected : TakesDirectory (['*', '*'] :: name :: names) [part]) :
    ∃ after, ComponentTakes .directories after name part := by
  rcases selected with ⟨front, first, ⟨one, inside, other⟩, takes⟩ | ⟨taken, _, _, ended⟩
  · rcases List.prefix_cons_iff.mp first with rfl | ⟨front, rfl, behind⟩
    · exact absurd inside List.not_mem_nil
    rcases List.prefix_cons_iff.mp behind with rfl | ⟨front, rfl, _⟩
    · exact absurd (List.mem_singleton.mp inside) other
    obtain ⟨taken, later, whole, _, takes⟩ := takes_directories.mp takes
    obtain ⟨first, others, rfl, piece, _⟩ := (takes_component single).mp takes
    have last : first ∈ [part] := whole ▸ List.mem_append_right _ List.mem_cons_self
    obtain rfl := List.mem_singleton.mp last
    exact ⟨_, piece⟩
  · have last : [] ∈ [part] := ended ▸ List.mem_append_right _ List.mem_cons_self
    exact absurd (List.mem_singleton.mp last).symm filled

theorem exists_way_not_taken {name : List Char} (single : name ≠ ['*', '*'])
    (lead : components base spec = ['*', '*'] :: name :: names) (h : pattern? .files base [spec] = some p)
    {file : String} (line : '\n' ∉ file.toList) (tested : p.test (comparison true) file.toList = true) :
    ∃ directory, directory ≠ "" ∧ OnTheWay p directory ∧
      ¬ TakesDirectory (components base spec) (splitAtEach '/' directory.toList) := by
  obtain ⟨package, member, refused⟩ := exists_package_not_taken name
  have shape : ∀ package ∈ packageNames, package ≠ [] ∧ package.head? ≠ some '.' ∧ '\n' ∉ package := by decide
  obtain ⟨filled, visible, line'⟩ := shape package member
  have whole : '/' ∉ package := (packageName_plain member).1
  have first : (components base spec).head? = some ['*', '*'] := by rw [lead]; rfl
  refine ⟨String.ofList package, fun empty => filled ?_, ?_, ?_⟩
  · simpa using congrArg String.toList empty
  · exact onTheWay_of_leading_run first h ⟨whole, filled, visible⟩ line' line tested
  · rw [String.toList_ofList, splitAtEach_of_not_mem whole, lead]
    intro selected
    obtain ⟨after, piece⟩ := takes_of_takesDirectory_singleton single filled selected
    exact refused after piece

section Selected

variable {q : Pattern} {directory : String}

theorem OnTheWay.test_iff (way : OnTheWay p directory) (h : pattern? .files base [spec] = some p)
    (made : pattern? .directories base [spec] = some q) : q.test (comparison true) directory.toList = true ↔
      TakesFront (components base spec) (splitAtEach '/' directory.toList) := by
  obtain ⟨line, taken⟩ := way.takesFront_or_run h
  rw [directories_test_iff made line]
  refine ⟨fun selected => ?_, .inl⟩
  rcases selected with front | ⟨run, _, _, ended⟩
  · exact front
  · -- An empty last part is none that `**` takes.
    rcases taken with front | ⟨_, visible⟩
    · exact front
    · rw [ended] at visible
      exact absurd rfl (visible [] (by simp)).1

theorem OnTheWay.test_or_test_trailing (way : OnTheWay p directory) (h : pattern? .files base [spec] = some p)
    (made : pattern? .directories base [spec] = some q) : q.test (comparison true) directory.toList = true ∨
      q.test (comparison true) (directory ++ "/").toList = true := by
  obtain ⟨line, front | ⟨lead, visible⟩⟩ := way.takesFront_or_run h
  · exact .inl ((directories_test_iff made line).mpr (.inl front))
  · right
    have line' : '\n' ∉ (directory ++ "/").toList := by simp [line]
    have cut : splitAtEach '/' (directory ++ "/").toList = splitAtEach '/' directory.toList ++ [[]] := by
      have whole : (directory ++ "/").toList = directory.toList ++ '/' :: [] := by simp
      rw [whole, splitAtEach_append_cons]
      rfl
    exact (directories_test_iff made line').mpr (.inr ⟨_, .inr lead, visible, cut⟩)

theorem exists_way_pruned (first : (components base spec).head? = some ['*', '*'])
    (h : pattern? .files base [spec] = some p) (made : pattern? .directories base [spec] = some q) {file : String}
    (line : '\n' ∉ file.toList) (tested : p.test (comparison true) file.toList = true) :
    ∃ directory, directory ≠ "" ∧ OnTheWay p directory ∧ ¬ q.test (comparison true) directory.toList = true := by
  obtain ⟨r, found, _⟩ := pattern?_single h
  obtain ⟨_, last, named⟩ := specRegex?_eq_some found
  obtain ⟨others, lead⟩ := List.head?_eq_some_iff.mp first
  cases others with
  | nil => exact absurd (by rw [lead]; rfl) (last (by decide))
  | cons name names =>
    have single : name ≠ ['*', '*'] := next_ne_of_namesRegex? (lead ▸ named)
    obtain ⟨directory, filled, way, refused⟩ := exists_way_not_taken single lead h line tested
    have line' := (way.takesFront_or_run h).1
    exact ⟨directory, filled, way, fun selected => refused ((directories_test_iff made line').mp selected)⟩

end Selected

/-- A spec that starts with `**` selects a directory on the way to a file if its first components take the directory,
and else selects it with a slash behind it. It selects all of them only if it selects no file at all. -/
theorem leading_run_way_iff (h : pattern? .files base [spec] = some p)
    (first : (components base spec).head? = some ['*', '*']) : ∃ q, pattern? .directories base [spec] = some q ∧
      (∀ directory, directory ≠ "" → OnTheWay p directory →
        (q.test (comparison true) directory.toList = true ↔
          TakesFront (components base spec) (splitAtEach '/' directory.toList)) ∧
        (q.test (comparison true) directory.toList = true ∨
          q.test (comparison true) (directory ++ "/").toList = true)) ∧
      ((∀ directory, directory ≠ "" → OnTheWay p directory → q.test (comparison true) directory.toList = true) ↔
        ∀ file : String, '\n' ∉ file.toList → p.test (comparison true) file.toList = false) := by
  obtain ⟨q, made⟩ := pattern?_directories h
  refine ⟨q, made, fun directory _ way => ⟨way.test_iff h made, way.test_or_test_trailing h made⟩, ?_⟩
  constructor
  · intro all file line
    rw [← Bool.not_eq_true]
    intro tested
    obtain ⟨directory, filled, way, refused⟩ := exists_way_pruned first h made line tested
    exact refused (all directory filled way)
  · intro none directory _ way
    obtain ⟨file, _, _, line, tested⟩ := way
    exact absurd tested (by simp [none file line])

theorem leading_run_way_iff_nested : ∃ p, pattern? .files "" ["**/lib/*.ts"] = some p ∧
    (components "" "**/lib/*.ts").head? = some ['*', '*'] ∧ "src" ≠ "" ∧ OnTheWay p "src" ∧
    ∃ q, pattern? .directories "" ["**/lib/*.ts"] = some q ∧ ¬ q.test (comparison true) "src".toList = true ∧
      q.test (comparison true) ("src" ++ "/").toList = true := by
  have first : (components "" "**/lib/*.ts").head? = some ['*', '*'] := by decide
  have filled : "src" ≠ "" := by decide
  have way : ∀ p, pattern? .files "" ["**/lib/*.ts"] = some p → OnTheWay p "src" := by
    intro p made
    obtain rfl := Option.some.inj made
    exact ⟨"src/lib/a.ts", "lib/a.ts", rfl, by decide, by with_unfolding_all decide⟩
  have pruned : ∀ q, pattern? .directories "" ["**/lib/*.ts"] = some q →
      ¬ q.test (comparison true) "src".toList = true := by
    intro q made
    obtain rfl := Option.some.inj made
    with_unfolding_all decide
  obtain ⟨q, made, matched, _⟩ := leading_run_way_iff rfl first
  have found := (matched "src" filled (way _ rfl)).2.resolve_left (pruned q made)
  exact ⟨_, rfl, first, filled, way _ rfl, q, made, pruned q made, found⟩

theorem leading_run_prunes_way : ∃ p q, pattern? .files "" ["**/*.ts"] = some p ∧
    pattern? .directories "" ["**/*.ts"] = some q ∧ (components "" "**/*.ts").head? = some ['*', '*'] ∧
    OnTheWay p "src" ∧ q.test (comparison true) "src".toList = false :=
  have tested : Pattern.test _ (comparison true) "src/a.ts".toList = true := by with_unfolding_all decide
  ⟨_, _, rfl, rfl, by decide, ⟨"src/a.ts", "a.ts", rfl, by decide, tested⟩, by with_unfolding_all decide⟩

end CompilerAdapter.Wildcard
