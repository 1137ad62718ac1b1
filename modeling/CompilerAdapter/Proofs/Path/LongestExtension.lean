import CompilerAdapter.Proofs.Path.Extensions
import Mathlib.Tactic.Tauto

/-!
# The longest extension

The extension that is removed from a path is the first one of a list that the path has. In a list that stands in order
it is also the longest, so that the list counts only as the set of its extensions: `removeExtension_longest`.
-/

namespace CompilerAdapter.Path

/-- A path is a name with `ending` behind it. -/
def EndsIn (path ending : String) : Prop := ∃ stem, stem ≠ "" ∧ path = stem ++ ending

/-- What is left of a path without the longest of the extensions that it has. -/
inductive WithoutLongest (extensions : List String) (path : String) : String → Prop
  | kept (none : ∀ extension ∈ extensions, ¬ EndsIn path extension) : WithoutLongest extensions path path
  | removed {stem extension : String} (named : stem ≠ "") (listed : extension ∈ extensions)
    (whole : path = stem ++ extension)
    (longest : ∀ other ∈ extensions, EndsIn path other → other.length ≤ extension.length) :
    WithoutLongest extensions path stem

/-- Extensions that are not empty, in order: none stands before a longer one that ends in it. -/
structure WellOrdered (extensions : List String) : Prop where
  nonempty : "" ∉ extensions
  longestFirst : LongestFirst extensions

variable {path extension name name' : String} {extensions others : List String}

/-! ### Endings of a path -/

theorem hasExtension_iff_endsIn : hasExtension path extension = true ↔ EndsIn path extension := hasExtension_iff

theorem removeExtension_cases (extensions : List String) (path : String) :
    (∃ extension, extensions.find? (hasExtension path) = some extension ∧
      removeExtension extensions path = dropExtension path extension) ∨
      (∀ extension ∈ extensions, ¬ EndsIn path extension) ∧ removeExtension extensions path = path := by
  unfold removeExtension
  cases found : extensions.find? (hasExtension path) with
  | some extension => exact .inl ⟨extension, rfl, rfl⟩
  | none =>
    refine .inr ⟨fun extension listed ends => ?_, rfl⟩
    exact List.find?_eq_none.mp found extension listed (hasExtension_iff_endsIn.mpr ends)

/-- An extension that is not empty is cut off behind a name. -/
theorem removeExtension_parts (nonempty : "" ∉ extensions)
    (found : extensions.find? (hasExtension path) = some extension) :
    removeExtension extensions path ≠ "" ∧ extension ∈ extensions ∧
      path = removeExtension extensions path ++ extension := by
  have listed := List.mem_of_find?_eq_some found
  obtain ⟨stem, named, whole⟩ := hasExtension_iff.mp (List.find?_some found)
  have left : removeExtension extensions path = stem := by
    unfold removeExtension
    rw [found, whole]
    exact dropExtension_append fun empty => nonempty (empty ▸ listed)
  rw [left]
  exact ⟨named, listed, whole⟩

/-! ### The first is the longest -/

theorem WithoutLongest.congr (same : ∀ extension, extension ∈ extensions ↔ extension ∈ others)
    (h : WithoutLongest extensions path name) : WithoutLongest others path name := by
  cases h with
  | kept none => exact .kept fun extension listed => none extension ((same extension).mpr listed)
  | removed named listed whole longest =>
    exact .removed named ((same _).mp listed) whole fun other listed' => longest other ((same other).mpr listed')

/-- A path has no two longest extensions, since extensions of one length are the same characters at its end. -/
theorem WithoutLongest.unique (h : WithoutLongest extensions path name) (h' : WithoutLongest extensions path name') :
    name = name' := by
  cases h with
  | kept none =>
    cases h' with
    | kept => rfl
    | removed named listed whole _ => exact absurd ⟨_, named, whole⟩ (none _ listed)
  | @removed _ extension named listed whole longest =>
    cases h' with
    | kept none => exact absurd ⟨_, named, whole⟩ (none _ listed)
    | @removed _ extension' named' listed' whole' longest' =>
      have size : extension.toList.length = extension'.toList.length :=
        Nat.le_antisymm (longest' extension listed ⟨_, named, whole⟩) (longest extension' listed' ⟨_, named', whole'⟩)
      have joined : name.toList ++ extension.toList = name'.toList ++ extension'.toList := by
        rw [← String.toList_append, ← String.toList_append, ← whole, whole']
      exact String.toList_inj.mp (List.append_inj' joined size).1

theorem withoutLongest_removeExtension (ordered : WellOrdered extensions) (path : String) :
    WithoutLongest extensions path (removeExtension extensions path) := by
  rcases removeExtension_cases extensions path with ⟨extension, found, _⟩ | ⟨none, left⟩
  · obtain ⟨named, listed, whole⟩ := removeExtension_parts ordered.nonempty found
    exact .removed named listed whole fun other otherListed ends =>
      length_le_of_find? ordered.longestFirst found otherListed (hasExtension_iff_endsIn.mpr ends)
  · rw [left]
    exact .kept none

theorem wellOrdered_sourceExtensions : WellOrdered sourceExtensions where
  nonempty := by decide
  longestFirst := longestFirst_sourceExtensions

/-- Of extensions in order the longest that a path has is removed, or nothing if it has none. Two such lists with the
same extensions remove the same, and the source extensions are such a list. -/
theorem removeExtension_longest :
    (∀ extensions : List String, WellOrdered extensions → ∀ path name : String,
      WithoutLongest extensions path name ↔ removeExtension extensions path = name) ∧
    (∀ extensions others : List String, WellOrdered extensions → WellOrdered others →
      (∀ extension, extension ∈ extensions ↔ extension ∈ others) →
      ∀ path : String, removeExtension extensions path = removeExtension others path) ∧
    WellOrdered sourceExtensions := by
  refine ⟨fun extensions ordered path name => ?_, fun extensions others ordered ordered' same path => ?_,
    wellOrdered_sourceExtensions⟩
  · constructor
    · exact (withoutLongest_removeExtension ordered path).unique
    · rintro rfl
      exact withoutLongest_removeExtension ordered path
  · have first := (withoutLongest_removeExtension ordered path).congr same
    exact first.unique (withoutLongest_removeExtension ordered' path)

theorem removeExtension_longest_reordered :
    WellOrdered [".d.ts", ".ts", ".vue"] ∧ WellOrdered [".vue", ".d.ts", ".vue", ".ts"] ∧
      (∀ extension, extension ∈ [".d.ts", ".ts", ".vue"] ↔ extension ∈ [".vue", ".d.ts", ".vue", ".ts"]) ∧
      WithoutLongest [".d.ts", ".ts", ".vue"] "a.vue.d.ts" "a.vue" ∧
      removeExtension [".d.ts", ".ts", ".vue"] ".d.ts" = removeExtension [".vue", ".d.ts", ".vue", ".ts"] ".d.ts" := by
  have ordered : WellOrdered [".d.ts", ".ts", ".vue"] := ⟨by decide, by unfold LongestFirst; decide⟩
  have ordered' : WellOrdered [".vue", ".d.ts", ".vue", ".ts"] := ⟨by decide, by unfold LongestFirst; decide⟩
  have same : ∀ extension, extension ∈ [".d.ts", ".ts", ".vue"] ↔ extension ∈ [".vue", ".d.ts", ".vue", ".ts"] := by
    intro extension
    simp only [List.mem_cons, List.not_mem_nil, or_false]
    tauto
  exact ⟨ordered, ordered', same, (removeExtension_longest.1 _ ordered _ _).mpr (by decide),
    removeExtension_longest.2.1 _ _ ordered ordered' same ".d.ts"⟩

end CompilerAdapter.Path
