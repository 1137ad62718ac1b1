import CompilerAdapter.Proofs.Wildcard.Matching

/-!
# Package directories

A spec that names no package directory selects paths without one exactly if no path can reach a `**` of it
(`package_free_iff`): `*` and `?` take no package directory, and `**` does.
-/

namespace CompilerAdapter.Wildcard

variable {usage : Usage} {base spec : String} {p : Pattern}

/-- Whether a path on one line can get to a `**`: the components in front of it hold no line feed, and among files those
behind it hold none either. -/
def ReachesRun (usage : Usage) (names : List (List Char)) : Prop :=
  ∃ before after, names = before ++ ['*', '*'] :: after ∧ (∀ name ∈ before, '\n' ∉ name) ∧
    (usage = .files → ∀ name ∈ after, '\n' ∉ name)

/-! ### What a path with a package directory tells -/

/-- Only `**` takes a package directory that is not named. -/
theorem run_mem_of_package {names parts rest : List (List Char)} (including : usage ≠ .exclude)
    (takes : Takes usage names parts rest) (unnamed : ∀ name ∈ names, name ∉ packageNames) {part : List Char}
    (member : part ∈ parts) (left : part ∉ rest) (package : part ∈ packageNames) : ['*', '*'] ∈ names := by
  induction takes with
  | nil => exact absurd member left
  | directories _ _ _ => exact List.mem_cons_self
  | @component name taken _ _ _ _ piece _ ih =>
    rw [List.forall_mem_cons] at unnamed
    rcases List.mem_cons.mp member with same | later
    · subst same
      obtain ⟨takes, guarded⟩ := (componentTakes_iff including).mp piece
      by_cases wild : HasWildcard name
      · exact absurd package (guarded wild)
      · rw [takes.eq_of_plain wild] at package
        exact absurd package unnamed.1
    · exact List.mem_cons_of_mem _ (ih unnamed.2 later left)

/-- Components that take parts of a line hold no line feed. -/
theorem names_one_line {names parts rest : List (List Char)} (takes : Takes usage names parts rest)
    (line : ∀ part ∈ parts, '\n' ∉ part) : ∀ name ∈ names, '\n' ∉ name := by
  induction takes with
  | nil => simp
  | directories _ _ ih =>
    rw [List.forall_mem_cons]
    exact ⟨by decide, ih fun part member => line part (List.mem_append_right _ member)⟩
  | component _ piece _ ih =>
    rw [List.forall_mem_cons] at line ⊢
    exact ⟨fun member => line.1 (piece.1.mem (by decide) member), ih line.2⟩

theorem reachesRun_of_package (including : usage ≠ .exclude) (h : pattern? usage base [spec] = some p)
    (unnamed : ∀ name ∈ components base spec, name ∉ packageNames) {path : String} (line : '\n' ∉ path.toList)
    (tested : p.test (comparison true) path.toList = true) {part : List Char}
    (member : part ∈ splitAtEach '/' path.toList) (package : part ∈ packageNames) :
    ReachesRun usage (components base spec) := by
  have lines : ∀ part ∈ splitAtEach '/' path.toList, '\n' ∉ part :=
    fun part member feed => line (mem_of_mem_splitAtEach member feed)
  have split : ∀ {front : List (List Char)}, front <+: components base spec →
      Takes usage front (splitAtEach '/' path.toList) [] → ∃ before after, front = before ++ ['*', '*'] :: after ∧
        ∀ name ∈ front, '\n' ∉ name := by
    intro front first takes
    have star := run_mem_of_package including takes (fun name here => unnamed name (first.subset here)) member
      List.not_mem_nil package
    obtain ⟨before, after, cut⟩ := List.append_of_mem star
    exact ⟨before, after, cut, names_one_line takes lines⟩
  cases usage with
  | files =>
    obtain ⟨rest, all, takes⟩ := (test_iff_takes (by decide) h line).mp tested
    rw [all including] at takes
    obtain ⟨before, after, cut, plain⟩ := split (List.prefix_refl _) takes
    rw [cut, List.forall_mem_append, List.forall_mem_cons] at plain
    exact ⟨before, after, cut, plain.1, fun _ => plain.2.2⟩
  | directories =>
    rcases (directories_test_iff h line).mp tested with ⟨front, first, _, takes⟩ | ⟨taken, lead, _, parted⟩
    · obtain ⟨before, after, rfl, plain⟩ := split first takes
      rw [List.forall_mem_append] at plain
      obtain ⟨more, whole⟩ := first
      exact ⟨before, after ++ more, by simp [← whole], plain.1, nofun⟩
    · rw [parted, List.mem_append, List.mem_singleton] at member
      rcases lead with rfl | lead
      · obtain rfl := member.resolve_left List.not_mem_nil
        exact absurd package (by decide)
      · obtain ⟨after, whole⟩ : ∃ after, components base spec = ['*', '*'] :: after := List.head?_eq_some_iff.mp lead
        exact ⟨[], after, whole, by simp, nofun⟩
  | exclude => exact absurd rfl including

/-! ### A path with a package directory -/

/-- A character that a character of a name takes. -/
def sampleChar (c : Char) : Char := if c = '*' ∨ c = '?' then '!' else c

/-- A part that a component takes: for `**` a package directory, and for any other component no such directory. -/
def samplePart (name : List Char) : List Char :=
  if name = ['*', '*'] then "node_modules".toList else name.map sampleChar

theorem sampleChar_eq {c x : Char} (h : sampleChar c = x) (other : x ≠ '!') : c = x := by
  unfold sampleChar at h
  split at h
  · exact absurd h.symm other
  · exact h

theorem not_mem_samplePart {name : List Char} {x : Char} (other : x ≠ '!') (outside : x ∉ "node_modules".toList)
    (absent : x ∉ name) : x ∉ samplePart name := by
  unfold samplePart
  split
  · exact outside
  · intro member
    obtain ⟨c, here, same⟩ := List.mem_map.mp member
    exact absent (sampleChar_eq same other ▸ here)

theorem nameTakes_sample (after name : List Char) (hidden : Bool) :
    NameTakes usage after hidden name (name.map sampleChar) := by
  induction name generalizing hidden with
  | nil => exact .nil
  | cons c name ih =>
    by_cases star : c = '*'
    · subst star
      have one : StarTakes usage ['!'] (name.map sampleChar ++ after) :=
        (starTakes_cons_of_ne (by decide)).mpr starTakes_nil
      exact .asterisk one (by simp) (ih true)
    · by_cases mark : c = '?'
      · subst mark
        exact .question (fun _ => by decide) (ih true)
      · have same : sampleChar c = c := by simp [sampleChar, star, mark]
        rw [List.map_cons, same]
        exact .same ⟨star, mark⟩ (ih true)

theorem sample_not_package {name : List Char} (wild : HasWildcard name) : name.map sampleChar ∉ packageNames := by
  intro package
  have marked : '!' ∈ name.map sampleChar := by
    rcases wild with member | member
    · exact List.mem_map.mpr ⟨'*', member, rfl⟩
    · exact List.mem_map.mpr ⟨'?', member, rfl⟩
  have unmarked : ∀ directory ∈ packageNames, '!' ∉ directory := by decide
  exact unmarked _ package marked

theorem runTakes_package (including : usage ≠ .exclude) : RunTakes usage ["node_modules".toList] := by
  have visible : ∀ part ∈ ["node_modules".toList], part ≠ [] ∧ part.head? ≠ some '.' := by decide
  cases usage with
  | files => exact visible
  | directories => exact visible
  | exclude => exact absurd rfl including

theorem takes_sample (including : usage ≠ .exclude) (names : List (List Char)) :
    Takes usage names (names.map samplePart) [] := by
  induction names with
  | nil => exact .nil
  | cons name names ih =>
    by_cases star : name = ['*', '*']
    · subst star
      exact .directories (runTakes_package including) ih
    · have part : samplePart name = name.map sampleChar := by rw [samplePart, if_neg star]
      rw [List.map_cons, part]
      exact .component star ((componentTakes_iff including).mpr ⟨nameTakes_sample _ _ _, sample_not_package⟩) ih

/-- The parts that components take make a path on one line, if the components are on one line. -/
theorem exists_sample_path {names : List (List Char)} (filled : names ≠ []) (clean : Apart '/' names)
    (plain : ∀ name ∈ names, '\n' ∉ name) : ∃ path : String, '\n' ∉ path.toList ∧
      splitAtEach '/' path.toList = names.map samplePart := by
  have apart : ∀ names : List (List Char), Apart '/' names → Apart '/' (names.map samplePart) := by
    intro names clean part member
    obtain ⟨name, here, rfl⟩ := List.mem_map.mp member
    exact not_mem_samplePart (by decide) (by decide) (clean name here)
  cases names with
  | nil => exact absurd rfl filled
  | cons name names =>
    have text : ∀ part ∈ (name :: names).map samplePart, '\n' ∉ part := by
      intro part member
      obtain ⟨name, here, rfl⟩ := List.mem_map.mp member
      exact not_mem_samplePart (by decide) (by decide) (plain name here)
    refine ⟨String.ofList (samplePart name ++ led '/' (names.map samplePart)), ?_, ?_⟩
    · rw [List.map_cons, List.forall_mem_cons] at text
      rw [String.toList_ofList, List.mem_append, not_or]
      refine ⟨text.1, fun feed => ?_⟩
      obtain ⟨part, member, inside⟩ := List.mem_flatMap.mp feed
      rcases List.mem_cons.mp inside with same | inside
      · exact absurd same (by decide)
      · exact text.2 part member inside
    · rw [String.toList_ofList]
      exact splitAtEach_led (apart (name :: names) clean)

theorem exists_package_path (including : usage ≠ .exclude) (h : pattern? usage base [spec] = some p)
    (reached : ReachesRun usage (components base spec)) : ∃ path : String, '\n' ∉ path.toList ∧
      p.test (comparison true) path.toList = true ∧ ∃ part ∈ splitAtEach '/' path.toList, part ∈ packageNames := by
  obtain ⟨before, after, cut, plain, plain'⟩ := reached
  have clean := apart_components base spec
  have package : samplePart ['*', '*'] ∈ packageNames := by decide
  cases usage with
  | files =>
    have lines : ∀ name ∈ components base spec, '\n' ∉ name := by
      rw [cut, List.forall_mem_append, List.forall_mem_cons]
      exact ⟨plain, by decide, plain' rfl⟩
    obtain ⟨path, line, parted⟩ := exists_sample_path (by simp [cut]) clean lines
    have takes := takes_sample including (components base spec)
    rw [← parted] at takes
    refine ⟨path, line, (test_iff_takes (by decide) h line).mpr ⟨[], fun _ => rfl, takes⟩, _, ?_, package⟩
    rw [parted]
    exact List.mem_map_of_mem (by simp [cut])
  | directories =>
    by_cases lead : (components base spec).head? = some ['*', '*']
    · -- A leading `**` takes the directory, and nothing else has to match.
      refine ⟨"node_modules/", by decide, (directories_test_iff h (by decide)).mpr (.inr ?_), _, ?_, package⟩
      · exact ⟨["node_modules".toList], .inr lead, runTakes_package including, by decide⟩
      · decide
    · cases before with
      | nil => exact absurd (by simp [cut]) lead
      | cons name before =>
        have single : name ≠ ['*', '*'] := by simpa [cut] using lead
        have first : name :: before ++ [['*', '*']] <+: components base spec := ⟨after, by simp [cut]⟩
        have lines : ∀ part ∈ name :: before ++ [['*', '*']], '\n' ∉ part := by
          rw [List.forall_mem_append]
          exact ⟨plain, by decide⟩
        obtain ⟨path, line, parted⟩ :=
          exists_sample_path (by simp) (fun part member => clean part (first.subset member)) lines
        have takes := takes_sample including (name :: before ++ [['*', '*']])
        rw [← parted] at takes
        have selected := (directories_test_iff h line).mpr (.inl ⟨_, first, ⟨name, by simp, single⟩, takes⟩)
        refine ⟨path, line, selected, _, ?_, package⟩
        rw [parted]
        exact List.mem_map_of_mem (by simp)
  | exclude => exact absurd rfl including

/-! ### Main statement -/

/-- A spec that names no package directory selects no path with one, unless a path can get to a `**`. -/
theorem package_free_iff (including : usage ≠ .exclude) (h : pattern? usage base [spec] = some p)
    (unnamed : ∀ name ∈ components base spec, name ∉ packageNames) :
    (∀ path : String, '\n' ∉ path.toList → p.test (comparison true) path.toList = true →
      ∀ part ∈ splitAtEach '/' path.toList, part ∉ packageNames) ↔ ¬ ReachesRun usage (components base spec) := by
  constructor
  · intro free reached
    obtain ⟨path, line, tested, part, member, package⟩ := exists_package_path including h reached
    exact free path line tested part member package
  · intro unreached path line tested part member package
    exact unreached (reachesRun_of_package including h unnamed line tested member package)

theorem package_free_iff_single_asterisk : ∃ p, pattern? .files "/app" ["src/*/?at*"] = some p ∧
    (∀ name ∈ components "/app" "src/*/?at*", name ∉ packageNames) ∧ ∀ path : String, '\n' ∉ path.toList →
      p.test (comparison true) path.toList = true → ∀ part ∈ splitAtEach '/' path.toList, part ∉ packageNames := by
  have including : Usage.files ≠ .exclude := by decide
  have unnamed : ∀ name ∈ components "/app" "src/*/?at*", name ∉ packageNames := by decide
  refine ⟨_, rfl, unnamed, (package_free_iff including rfl unnamed).mpr ?_⟩
  intro reached
  obtain ⟨before, after, cut, _⟩ := reached
  have star : ['*', '*'] ∈ components "/app" "src/*/?at*" := by simp [cut]
  exact absurd star (by decide)

/-- `**` takes a package directory that the spec does not name. -/
theorem package_taken_by_run : ∃ p, pattern? .files "" ["**/*.ts"] = some p ∧
    (∀ name ∈ components "" "**/*.ts", name ∉ packageNames) ∧ '\n' ∉ "node_modules/a.ts".toList ∧
    p.test (comparison true) "node_modules/a.ts".toList = true ∧
    "node_modules".toList ∈ splitAtEach '/' "node_modules/a.ts".toList ∧ "node_modules".toList ∈ packageNames :=
  ⟨_, rfl, by decide, by decide, by with_unfolding_all decide, by decide, by decide⟩

end CompilerAdapter.Wildcard
