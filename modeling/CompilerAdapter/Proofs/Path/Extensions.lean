import CompilerAdapter.Proofs.Path.Slashes

/-!
# Extensions and module names

A path has an extension if it is a name with that extension behind it. Of extensions that stand in order, longer ones
first, the longest that a path has is removed. So all artefacts of a module come under one name, whichever slashes they
are written with: `normalize_artefacts`.
-/

namespace CompilerAdapter.Path

variable {path stem extension other : String} {extensions : List String}

/-! ### A name and its extension -/

theorem hasExtension_iff :
    hasExtension path extension = true ↔ ∃ stem, stem ≠ "" ∧ path = stem ++ extension := by
  unfold hasExtension
  rw [Bool.and_eq_true, decide_eq_true_iff, List.isSuffixOf_iff_suffix]
  constructor
  · rintro ⟨shorter, front, whole⟩
    have same : path = String.ofList front ++ extension := by
      rw [← String.toList_inj, String.toList_append, String.toList_ofList, whole]
    refine ⟨_, fun empty => ?_, same⟩
    rw [same, empty, String.length_append, String.length_empty] at shorter
    omega
  · rintro ⟨stem, named, rfl⟩
    have positive : stem.length ≠ 0 := fun none => named (String.length_eq_zero_iff.mp none)
    rw [String.length_append, String.toList_append]
    exact ⟨by omega, List.suffix_append _ _⟩

theorem hasExtension_append (named : stem ≠ "") : hasExtension (stem ++ extension) extension = true :=
  hasExtension_iff.mpr ⟨stem, named, rfl⟩

theorem suffix_of_hasExtension (h : hasExtension path extension = true) : extension.toList <:+ path.toList := by
  obtain ⟨stem, _, rfl⟩ := hasExtension_iff.mp h
  rw [String.toList_append]
  exact List.suffix_append _ _

theorem dropExtension_append (h : extension ≠ "") : dropExtension (stem ++ extension) extension = stem := by
  unfold dropExtension
  rw [if_neg (by simpa using h), String.length_append, Nat.add_sub_cancel, String.toList_append,
    List.take_left' String.length_toList, String.ofList_toList]

/-! ### The extension that is removed -/

/-- No extension stands before a longer one that ends in it. -/
def LongestFirst (extensions : List String) : Prop :=
  extensions.Pairwise fun earlier later => earlier.toList <:+ later.toList → earlier = later

/-- The extension that is found first is the longest that the path has. -/
theorem length_le_of_find? (ordered : LongestFirst extensions)
    (found : extensions.find? (hasExtension path) = some extension) (listed : other ∈ extensions)
    (has : hasExtension path other = true) : other.length ≤ extension.length := by
  refine Nat.le_of_not_lt fun longer => ?_
  have shorter : extension.toList <:+ other.toList :=
    List.suffix_of_suffix_length_le (suffix_of_hasExtension (List.find?_some found)) (suffix_of_hasExtension has)
      (Nat.le_of_lt longer)
  obtain ⟨_, before, after, rfl, passed⟩ := List.find?_eq_some_iff_append.mp found
  rcases List.mem_append.mp listed with earlier | later
  · have lacks := passed other earlier
    rw [has] at lacks
    cases lacks
  · rcases List.mem_cons.mp later with rfl | behind
    · exact Nat.lt_irrefl _ longer
    · obtain rfl := List.rel_of_pairwise_cons (List.pairwise_append.mp ordered).2.1 behind shorter
      exact Nat.lt_irrefl _ longer

theorem removeExtension_of_longest (ordered : LongestFirst extensions) (listed : extension ∈ extensions)
    (has : hasExtension path extension = true)
    (longest : ∀ other ∈ extensions, hasExtension path other = true → other.length ≤ extension.length) :
    removeExtension extensions path = dropExtension path extension := by
  obtain ⟨first, found⟩ := Option.isSome_iff_exists.mp (List.find?_isSome.mpr ⟨extension, listed, has⟩)
  have hasFirst := List.find?_some found
  have size : first.length = extension.length :=
    Nat.le_antisymm (longest first (List.mem_of_find?_eq_some found) hasFirst)
      (length_le_of_find? ordered found listed has)
  have ending : first.toList <:+ extension.toList :=
    List.suffix_of_suffix_length_le (suffix_of_hasExtension hasFirst) (suffix_of_hasExtension has)
      (Nat.le_of_eq size)
  unfold removeExtension
  rw [found, String.toList_inj.mp (ending.eq_of_length size)]

theorem longestFirst_sourceExtensions : LongestFirst sourceExtensions := by
  unfold LongestFirst
  decide

/-- A source extension is the end of another one only for a declaration. -/
theorem eq_or_declaration_of_suffix : ∀ extension ∈ sourceExtensions, ∀ other ∈ sourceExtensions,
    extension.toList <:+ other.toList → other = extension ∨ other = ".d" ++ extension := by
  decide

theorem removeExtension_sourceExtensions (named : stem ≠ "") (listed : extension ∈ sourceExtensions)
    (plain : ".d" ++ extension ∈ sourceExtensions → ∀ front, front ≠ "" → stem ≠ front ++ ".d") :
    removeExtension sourceExtensions (stem ++ extension) = stem := by
  have longest : ∀ other ∈ sourceExtensions, hasExtension (stem ++ extension) other = true →
      other.length ≤ extension.length := by
    intro other otherListed has
    refine Nat.le_of_not_lt fun longer => ?_
    have ending : extension.toList <:+ other.toList :=
      List.suffix_of_suffix_length_le (suffix_of_hasExtension (hasExtension_append named))
        (suffix_of_hasExtension has) (Nat.le_of_lt longer)
    rcases eq_or_declaration_of_suffix extension listed other otherListed ending with rfl | rfl
    · exact Nat.lt_irrefl _ longer
    · obtain ⟨front, fronted, whole⟩ := hasExtension_iff.mp has
      rw [← String.append_assoc, String.append_left_inj] at whole
      exact plain otherListed front fronted whole
  have nonempty : extension ≠ "" := by
    rintro rfl
    revert listed
    decide
  rw [removeExtension_of_longest longestFirst_sourceExtensions listed (hasExtension_append named) longest,
    dropExtension_append nonempty]

/-- A stem that ends in `.d` is not kept with `.ts` behind it. -/
example : removeExtension sourceExtensions "lib/a.d.ts" = "lib/a" := by decide

/-! ### The name of a module -/

/-- A path without the source map extension, if it has that. -/
def dropSourceMap (path : String) : String :=
  if isSourceMap path then dropExtension path sourceMapExtension else path

theorem slashless_sourceMapExtension : Slashless sourceMapExtension := by
  unfold Slashless
  decide

theorem dropSourceMap_append (named : stem ≠ "") : dropSourceMap (stem ++ sourceMapExtension) = stem := by
  unfold dropSourceMap isSourceMap
  rw [if_pos (hasExtension_append named), dropExtension_append (by decide)]

theorem dropSourceMap_of_not (h : ¬ isSourceMap path = true) : dropSourceMap path = path := if_neg h

theorem isSourceMap_normalizeSlashes : isSourceMap (normalizeSlashes path) = true ↔ isSourceMap path = true := by
  unfold isSourceMap
  rw [hasExtension_iff, hasExtension_iff]
  simp only [normalizeSlashes_eq_append_iff slashless_sourceMapExtension]
  constructor
  · rintro ⟨_, named, stem, whole, rfl⟩
    exact ⟨stem, mt normalizeSlashes_eq_empty.mpr named, whole⟩
  · rintro ⟨stem, named, whole⟩
    exact ⟨_, mt normalizeSlashes_eq_empty.mp named, stem, whole, rfl⟩

theorem normalizeSlashes_dropSourceMap (path : String) :
    normalizeSlashes (dropSourceMap path) = dropSourceMap (normalizeSlashes path) := by
  by_cases map : isSourceMap path = true
  · obtain ⟨stem, named, rfl⟩ := hasExtension_iff.mp map
    rw [dropSourceMap_append named, normalizeSlashes_append,
      normalizeSlashes_of_slashless slashless_sourceMapExtension,
      dropSourceMap_append (mt normalizeSlashes_eq_empty.mp named)]
  · rw [dropSourceMap_of_not map, dropSourceMap_of_not (mt isSourceMap_normalizeSlashes.mp map)]

/-- Slashes can be turned first. -/
theorem normalize_eq (extensions : List String) (path : String) :
    normalize extensions path = removeExtension extensions (dropSourceMap (normalizeSlashes path)) := by
  rw [← normalizeSlashes_dropSourceMap]
  rfl

theorem dropSourceMap_sourceExtension (listed : extension ∈ sourceExtensions) :
    dropSourceMap (stem ++ extension) = stem ++ extension := by
  have apart : ∀ extension ∈ sourceExtensions, ¬ sourceMapExtension.toList <:+ extension.toList ∧
      ¬ extension.toList <:+ sourceMapExtension.toList := by
    decide
  refine dropSourceMap_of_not fun map => ?_
  have ending : extension.toList <:+ (stem ++ extension).toList := by
    rw [String.toList_append]
    exact List.suffix_append _ _
  rcases List.suffix_or_suffix_of_suffix (suffix_of_hasExtension map) ending with within | within
  · exact (apart extension listed).1 within
  · exact (apart extension listed).2 within

/-- Every artefact of a module has the module's name, with a source map extension or without, and whatever slashes the
path is written with. A stem that ends in `.d` is left to declarations. -/
theorem normalize_artefacts :
    (∀ stem extension path : String, stem ≠ "" → extension ∈ sourceExtensions →
      (extension ∈ [".ts", ".mts", ".cts"] → ∀ front, front ≠ "" → stem ≠ front ++ ".d") →
      (normalizeSlashes path = normalizeSlashes stem ++ extension ∨
        normalizeSlashes path = normalizeSlashes stem ++ extension ++ ".map") →
      normalize sourceExtensions path = normalizeSlashes stem) ∧
    ∀ (extensions : List String) (path other : String), normalizeSlashes path = normalizeSlashes other →
      normalize extensions path = normalize extensions other := by
  constructor
  · intro stem extension path named listed plain written
    have named' : normalizeSlashes stem ≠ "" := mt normalizeSlashes_eq_empty.mp named
    have dropped : dropSourceMap (normalizeSlashes path) = normalizeSlashes stem ++ extension := by
      rcases written with bare | map
      · rw [bare, dropSourceMap_sourceExtension listed]
      · have longer : normalizeSlashes stem ++ extension ≠ "" := by
          intro empty
          rw [String.append_eq_empty_iff] at empty
          exact named' empty.1
        rw [map]
        exact dropSourceMap_append longer
    have short : ∀ extension ∈ sourceExtensions, ".d" ++ extension ∈ sourceExtensions →
        extension ∈ [".ts", ".mts", ".cts"] := by
      decide
    rw [normalize_eq, dropped]
    refine removeExtension_sourceExtensions named' listed fun declared front fronted same => ?_
    obtain ⟨front', whole, turned⟩ := (normalizeSlashes_eq_append_iff ⟨by decide, by decide⟩).mp same
    have fronted' : front' ≠ "" := fun empty => fronted (turned ▸ normalizeSlashes_eq_empty.mpr empty)
    exact plain (short extension listed declared) front' fronted' whole
  · intro extensions path other same
    rw [normalize_eq, normalize_eq, same]

theorem normalize_artefacts_bare_declaration :
    (".d" ≠ "" ∧ ".ts" ∈ sourceExtensions ∧
      (".ts" ∈ [".ts", ".mts", ".cts"] → ∀ front, front ≠ "" → ".d" ≠ front ++ ".d") ∧
      normalizeSlashes ".d.ts.map" = normalizeSlashes ".d" ++ ".ts" ++ ".map" ∧
      normalize sourceExtensions ".d.ts.map" = normalizeSlashes ".d") ∧
    normalizeSlashes "a\\b/.map" = normalizeSlashes "a/b\\.map" ∧
    normalize ["b/", "/", ""] "a\\b/.map" = normalize ["b/", "/", ""] "a/b\\.map" := by
  have bare : ∀ front, front ≠ "" → ".d" ≠ front ++ ".d" := by
    intro front fronted whole
    have empty := congrArg String.length whole
    rw [String.length_append] at empty
    exact fronted (String.length_eq_zero_iff.mp (by omega))
  have map : normalizeSlashes ".d.ts.map" = normalizeSlashes ".d" ++ ".ts" ++ ".map" := by
    cbv
  have same : normalizeSlashes "a\\b/.map" = normalizeSlashes "a/b\\.map" := by
    cbv
  exact ⟨⟨by decide, by decide, fun _ => bare, map,
    normalize_artefacts.1 ".d" ".ts" ".d.ts.map" (by decide) (by decide) (fun _ => bare) (.inr map)⟩, same,
    normalize_artefacts.2 ["b/", "/", ""] "a\\b/.map" "a/b\\.map" same⟩

end CompilerAdapter.Path
