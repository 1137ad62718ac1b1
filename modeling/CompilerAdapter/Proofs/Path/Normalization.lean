import CompilerAdapter.Proofs.Path.LongestExtension
import Mathlib.Logic.Function.Iterate

/-!
# What normalising leaves

The name of a module is a front of the path with forward slashes. What is cut off behind it is an extension and the
source map extension, each at most once, and a name is left if no extension is empty: `normalize_keeps_name`. A path is
its own name if nothing is left to turn or to cut off, and repeated normalising comes to such a path:
`normalize_fixed_points`.
-/

namespace CompilerAdapter.Path

/-- A path without the source map extension and without any of the extensions. -/
structure IsBare (extensions : List String) (path : String) : Prop where
  noSourceMap : ¬ EndsIn path ".map"
  noExtension : ∀ extension ∈ extensions, ¬ EndsIn path extension

variable {path stem extension : String} {extensions : List String}

/-! ### The parts of a path -/

theorem length_normalizeSlashes (path : String) : (normalizeSlashes path).length = path.length := by
  rw [← String.length_toList, toList_normalizeSlashes, List.length_map, String.length_toList]

theorem normalizeSlashes_eq_self : normalizeSlashes path = path ↔ '\\' ∉ path.toList := by
  rw [← String.toList_inj, toList_normalizeSlashes]
  constructor
  · intro same
    rw [← same]
    exact no_backslash_forwardSlash _
  · exact map_forwardSlash_of_plain

theorem isSourceMap_iff : isSourceMap path = true ↔ EndsIn path ".map" := hasExtension_iff

theorem exists_sourceMap_part (filled : path ≠ "") :
    dropSourceMap path ≠ "" ∧ ∃ map ∈ ["", ".map"], path = dropSourceMap path ++ map := by
  by_cases map : isSourceMap path = true
  · obtain ⟨stem, named, rfl⟩ := isSourceMap_iff.mp map
    rw [show dropSourceMap (stem ++ ".map") = stem from dropSourceMap_append named]
    exact ⟨named, ".map", by simp, rfl⟩
  · rw [dropSourceMap_of_not map]
    exact ⟨filled, "", by simp, by simp⟩

theorem exists_extension_part (nonempty : "" ∉ extensions) (filled : path ≠ "") :
    removeExtension extensions path ≠ "" ∧
      ∃ extension, (extension ∈ extensions ∨ extension = "") ∧ path = removeExtension extensions path ++ extension := by
  rcases removeExtension_cases extensions path with ⟨extension, found, _⟩ | ⟨_, left⟩
  · obtain ⟨named, listed, whole⟩ := removeExtension_parts nonempty found
    exact ⟨named, extension, .inl listed, whole⟩
  · rw [left]
    exact ⟨filled, "", .inr rfl, by simp⟩

/-- A single character has no extension but the empty one, which takes it away. -/
theorem normalize_single (listed : "" ∈ extensions) : normalize extensions "a" = "" := by
  rw [normalize_eq, normalizeSlashes_eq_self.mpr (by decide), dropSourceMap_of_not (by decide)]
  rcases removeExtension_cases extensions "a" with ⟨extension, found, left⟩ | ⟨none, _⟩
  · obtain ⟨stem, named, whole⟩ := hasExtension_iff.mp (List.find?_some found)
    have size := congrArg String.length whole
    have positive : stem.length ≠ 0 := mt String.length_eq_zero_iff.mp named
    rw [String.length_append, show "a".length = 1 by decide] at size
    have empty : extension = "" := String.length_eq_zero_iff.mp (by omega)
    rw [left, empty]
    rfl
  · exact absurd ⟨"a", by decide, by simp⟩ (none "" listed)

/-- Without the empty extension, and only then, normalising leaves a name of every path that is not empty, and behind
the name it cuts off one of the extensions or none and the source map extension or nothing. -/
theorem normalize_keeps_name (extensions : List String) :
    "" ∉ extensions ↔ ∀ path : String, path ≠ "" → normalize extensions path ≠ "" ∧
      ∃ extension, (extension ∈ extensions ∨ extension = "") ∧ ∃ map ∈ ["", ".map"],
        normalizeSlashes path = normalize extensions path ++ extension ++ map := by
  constructor
  · intro nonempty path filled
    rw [normalize_eq]
    obtain ⟨filled', map, known, whole⟩ := exists_sourceMap_part (mt normalizeSlashes_eq_empty.mp filled)
    obtain ⟨named, extension, listed, front⟩ := exists_extension_part nonempty filled'
    refine ⟨named, extension, listed, map, known, ?_⟩
    rw [← front]
    exact whole
  · intro keeps listed
    exact (keeps "a" (by decide)).1 (normalize_single listed)

/-! ### Fixed points -/

theorem isPrefix_dropExtension (path extension : String) : (dropExtension path extension).toList <+: path.toList := by
  unfold dropExtension
  split
  · exact List.nil_prefix
  · rw [String.toList_ofList]
    exact List.take_prefix _ _

theorem isPrefix_removeExtension (extensions : List String) (path : String) :
    (removeExtension extensions path).toList <+: path.toList := by
  rcases removeExtension_cases extensions path with ⟨extension, _, left⟩ | ⟨_, left⟩
  · rw [left]
    exact isPrefix_dropExtension path extension
  · exact left.symm ▸ List.prefix_rfl

theorem isPrefix_dropSourceMap (path : String) : (dropSourceMap path).toList <+: path.toList := by
  unfold dropSourceMap
  split
  · exact isPrefix_dropExtension path sourceMapExtension
  · exact List.prefix_rfl

theorem isPrefix_normalize (extensions : List String) (path : String) :
    (normalize extensions path).toList <+: (normalizeSlashes path).toList := by
  rw [normalize_eq]
  exact (isPrefix_removeExtension _ _).trans (isPrefix_dropSourceMap _)

theorem no_backslash_normalize (extensions : List String) (path : String) :
    '\\' ∉ (normalize extensions path).toList := by
  intro member
  have turned := (isPrefix_normalize extensions path).subset member
  rw [toList_normalizeSlashes] at turned
  exact no_backslash_forwardSlash _ turned

theorem length_normalize_le (extensions : List String) (path : String) :
    (normalize extensions path).length ≤ path.length := by
  rw [← length_normalizeSlashes path]
  exact (isPrefix_normalize extensions path).length_le

theorem length_dropExtension_lt (h : EndsIn path extension) :
    (dropExtension path extension).length < path.length := by
  obtain ⟨stem, named, rfl⟩ := h
  have positive : stem.length ≠ 0 := mt String.length_eq_zero_iff.mp named
  by_cases empty : extension = ""
  · subst empty
    rw [String.append_empty]
    exact Nat.pos_of_ne_zero positive
  · have filled : extension.length ≠ 0 := mt String.length_eq_zero_iff.mp empty
    rw [dropExtension_append empty, String.length_append]
    omega

/-- Of a path with forward slashes normalising takes something away, unless it is bare. -/
theorem length_normalize_lt (plain : '\\' ∉ path.toList) (h : ¬ IsBare extensions path) :
    (normalize extensions path).length < path.length := by
  rw [normalize_eq, normalizeSlashes_eq_self.mpr plain]
  have front : (removeExtension extensions (dropSourceMap path)).length ≤ (dropSourceMap path).length :=
    (isPrefix_removeExtension extensions (dropSourceMap path)).length_le
  by_cases map : isSourceMap path = true
  · have shorter : (dropSourceMap path).length < path.length := by
      unfold dropSourceMap
      rw [if_pos map]
      exact length_dropExtension_lt (isSourceMap_iff.mp map)
    omega
  · rw [dropSourceMap_of_not map]
    rcases removeExtension_cases extensions path with ⟨extension, found, left⟩ | ⟨none, _⟩
    · rw [left]
      exact length_dropExtension_lt (hasExtension_iff_endsIn.mp (List.find?_some found))
    · exact absurd ⟨mt isSourceMap_iff.mpr map, none⟩ h

theorem normalize_of_isBare (plain : '\\' ∉ path.toList) (bare : IsBare extensions path) :
    normalize extensions path = path := by
  rw [normalize_eq, normalizeSlashes_eq_self.mpr plain, dropSourceMap_of_not (mt isSourceMap_iff.mp bare.noSourceMap)]
  rcases removeExtension_cases extensions path with ⟨extension, found, _⟩ | ⟨_, left⟩
  · have ends := hasExtension_iff_endsIn.mp (List.find?_some found)
    exact absurd ends (bare.noExtension extension (List.mem_of_find?_eq_some found))
  · exact left

theorem normalize_eq_self_iff_of_plain (plain : '\\' ∉ path.toList) :
    normalize extensions path = path ↔ IsBare extensions path := by
  constructor
  · intro fixed
    by_contra more
    have shorter := length_normalize_lt plain more
    rw [fixed] at shorter
    exact Nat.lt_irrefl _ shorter
  · exact normalize_of_isBare plain

theorem exists_fixed_iterate (plain : '\\' ∉ path.toList) :
    ∃ steps ≤ path.length, normalize extensions ((normalize extensions)^[steps] path) =
      (normalize extensions)^[steps] path := by
  -- The induction is on the length, which every step makes smaller that does not start at a bare path.
  induction n : path.length using Nat.strongRecOn generalizing path with
  | ind n ih =>
    subst n
    by_cases bare : IsBare extensions path
    · exact ⟨0, Nat.zero_le _, normalize_of_isBare plain bare⟩
    · have shorter := length_normalize_lt plain bare
      obtain ⟨steps, few, fixed⟩ := ih _ shorter (no_backslash_normalize extensions path) rfl
      exact ⟨steps + 1, by omega, fixed⟩

/-- A path is its own name exactly if it has forward slashes only and is bare. So a second normalising changes nothing
exactly if the first has left a bare path, and to normalise again and again comes to a fixed point: a first step may only
turn slashes, and each one after it makes the path shorter. -/
theorem normalize_fixed_points (extensions : List String) :
    (∀ path : String, normalize extensions path = path ↔ '\\' ∉ path.toList ∧ IsBare extensions path) ∧
    (∀ path : String, normalize extensions (normalize extensions path) = normalize extensions path ↔
      IsBare extensions (normalize extensions path)) ∧
    ∀ path : String, ∃ steps ≤ path.length + 1, normalize extensions ((normalize extensions)^[steps] path) =
      (normalize extensions)^[steps] path := by
  refine ⟨fun path => ?_, fun path => normalize_eq_self_iff_of_plain (no_backslash_normalize extensions path),
    fun path => ?_⟩
  · constructor
    · intro fixed
      have plain := no_backslash_normalize extensions path
      rw [fixed] at plain
      exact ⟨plain, (normalize_eq_self_iff_of_plain plain).mp fixed⟩
    · rintro ⟨plain, bare⟩
      exact normalize_of_isBare plain bare
  · obtain ⟨steps, few, fixed⟩ := exists_fixed_iterate (no_backslash_normalize extensions path)
    have bound := length_normalize_le extensions path
    exact ⟨steps + 1, by omega, fixed⟩

end CompilerAdapter.Path
