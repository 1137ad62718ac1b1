import CompilerAdapter.Proofs.Path.Components
import CompilerAdapter.Proofs.Path.Slashes

/-!
# Resolving against a base

A relative path is resolved by its own components, which go on one after another from those of the base:
`components_relative`.
-/

namespace CompilerAdapter.Path

variable {base spec : String}

/-- A path that starts with neither a slash of either kind nor a drive. -/
def IsRelative (path : String) : Prop :=
  (∀ c ∈ path.toList.head?, c ≠ '/' ∧ c ≠ '\\') ∧
    ∀ letter rest, path.toList = letter :: ':' :: rest → letter.isAlpha = false

/-! ### Paths without a root -/

theorem root_eq_none_iff {path : List Char} : (splitRoot path).1 = none ↔
    (∀ rest, path ≠ '/' :: rest) ∧ ∀ letter rest, path = letter :: ':' :: rest → letter.isAlpha = false := by
  constructor
  · intro none
    refine ⟨?_, ?_⟩
    · rintro rest rfl
      cases none
    · rintro letter rest rfl
      apply Bool.eq_false_iff.mpr
      intro alpha
      obtain ⟨below, cut, _⟩ := splitRoot_drive alpha
      rw [cut] at none
      cases none
  · intro free
    rw [splitRoot_of_rootless free.1 free.2]

theorem isRelative_iff {path : String} : IsRelative path ↔ (splitRoot (path.toList.map forwardSlash)).1 = none := by
  rw [root_eq_none_iff]
  unfold IsRelative
  cases path.toList with
  | nil => simp
  | cons c rest =>
    have start : (∀ x ∈ (c :: rest).head?, x ≠ '/' ∧ x ≠ '\\') ↔ ∀ tail, (c :: rest).map forwardSlash ≠ '/' :: tail := by
      simp [forwardSlash_eq_slash]
    have drive : (∀ letter tail, c :: rest = letter :: ':' :: tail → letter.isAlpha = false) ↔
        ∀ letter tail, (c :: rest).map forwardSlash = letter :: ':' :: tail → letter.isAlpha = false := by
      cases rest with
      | nil => simp
      | cons d rest => simp [isAlpha_forwardSlash, forwardSlash_eq_iff]
    exact and_congr start drive

instance : DecidablePred IsRelative := fun _ => decidable_of_iff _ isRelative_iff.symm

/-! ### Components below a base -/

/-- The entry that leads to the directory above leaves the last entry, but neither another of its kind nor one of the
first `roots`. Any other entry goes behind the last. -/
def enter (roots : Nat) (entries : List String) (entry : String) : List String :=
  if entry = ".." ∧ roots < entries.length ∧ entries.getLast? ≠ some ".." then entries.dropLast
  else entries ++ [entry]

theorem enter_eq_push {root names : List (List Char)} {name : List Char} (moves : Moves name) :
    enter root.length ((root ++ names).map String.ofList) (String.ofList name) =
      (root ++ push names name).map String.ofList := by
  by_cases back : name = parent
  · subst back
    rcases List.eq_nil_or_concat names with rfl | ⟨front, last, rfl⟩
    · unfold enter
      rw [if_neg (by simp), push_parent (.inl rfl)]
      simp
    · rw [List.concat_eq_append]
      have longer : root.length < ((root ++ (front ++ [last])).map String.ofList).length := by
        simp only [List.length_map, List.length_append, List.length_singleton]
        omega
      have latest : ((root ++ (front ++ [last])).map String.ofList).getLast? = some (String.ofList last) := by
        simp
      unfold enter
      rw [latest]
      by_cases top : last = parent
      · subst top
        rw [if_neg fun leaves => leaves.2.2 rfl, push_parent (.inr (by simp))]
        simp
      · have other : some (String.ofList last) ≠ some ".." := by
          intro same
          exact top (String.ofList_injective (Option.some.inj same))
        rw [if_pos ⟨rfl, longer, other⟩, push_concat_parent top]
        simp
  · unfold enter
    rw [if_neg, push_of_ne_parent moves back]
    · simp
    · intro leaves
      exact back (String.ofList_injective leaves.1)

theorem foldl_enter {root names others : List (List Char)} (move : ∀ name ∈ others, Moves name) :
    (others.map String.ofList).foldl (enter root.length) ((root ++ names).map String.ofList) =
      (root ++ others.foldl push names).map String.ofList := by
  induction others generalizing names with
  | nil => rfl
  | cons name rest ih =>
    rw [List.forall_mem_cons] at move
    rw [List.map_cons, List.foldl_cons, enter_eq_push move.1, ih move.2]
    rfl

/-- A path under a base that starts with a name starts with that name too. -/
theorem splitRoot_under_name {base path : List Char} (filled : base ≠ []) (rootless : (splitRoot base).1 = none) :
    splitRoot (trimSlashes base ++ '/' :: path) = (none, trimSlashes base ++ '/' :: path) := by
  obtain ⟨start, drive⟩ := root_eq_none_iff.mp rootless
  cases base with
  | nil => exact absurd rfl filled
  | cons c rest =>
    have plain : c ≠ '/' := fun slash => start rest (by rw [slash])
    rw [trimSlashes_cons, if_neg fun bare => plain bare.2]
    apply splitRoot_of_rootless
    · intro tail same
      exact plain (List.cons.inj same).1
    · intro letter tail same
      obtain ⟨rfl, colon⟩ := List.cons.inj same
      obtain ⟨slashes, whole⟩ : trimSlashes rest <+: rest := List.rdropWhile_prefix _ _
      cases trimmed : trimSlashes rest with
      | nil =>
        rw [trimmed] at colon
        exact absurd (List.cons.inj colon).1 (by decide)
      | cons d more =>
        rw [trimmed] at colon whole
        obtain ⟨rfl, -⟩ := List.cons.inj colon
        exact drive c _ (congrArg (c :: ·) whole.symm)

/-- A path put under a base keeps the root of the base, and goes on from where the base leads to. -/
theorem splitRoot_under {base path : List Char} (filled : base ≠ []) :
    (splitRoot (trimSlashes base ++ '/' :: path)).1 = (splitRoot base).1 ∧
      walk [] (splitRoot (trimSlashes base ++ '/' :: path)).2 = walk (walk [] (splitRoot base).2) path := by
  have below : ∀ rest, walk [] (trimSlashes rest ++ '/' :: path) = walk (walk [] rest) path := by
    intro rest
    rw [walk_append_slash, walk_trimSlashes]
  rcases root_cases base with ⟨rest, rfl⟩ | ⟨letter, rest, alpha, rfl⟩ | rootless
  · rw [trimSlashes_cons]
    split
    · rename_i bare
      have stays : walk [] rest = [] := by rw [← walk_trimSlashes, bare.1, walk_nil]
      refine ⟨rfl, ?_⟩
      rw [List.nil_append, splitRoot_slash, splitRoot_slash, stays]
    · exact ⟨rfl, below rest⟩
  · have trimmed : trimSlashes (letter :: ':' :: rest) = letter :: ':' :: trimSlashes rest := by
      rw [trimSlashes_cons, if_neg fun bare => ne_slash_of_alpha alpha bare.2, trimSlashes_cons,
        if_neg fun bare => absurd bare.2 (by decide)]
    rw [trimmed, List.cons_append, List.cons_append]
    obtain ⟨_, alone, same⟩ := splitRoot_drive alpha
    obtain ⟨_, joined, same'⟩ := splitRoot_drive alpha
    rw [joined, alone, same', same, below]
    exact ⟨rfl, rfl⟩
  · rw [splitRoot_under_name filled (by rw [rootless]), rootless]
    exact ⟨rfl, below base⟩

/-- The number of root entries, by a condition for a path to have none. -/
theorem length_root {path : List Char} {rootless : Prop} [Decidable rootless]
    (h : (splitRoot path).1 = none ↔ rootless) :
    (splitRoot path).1.toList.length = if rootless then 0 else 1 := by
  by_cases free : rootless
  · rw [if_pos free, h.mpr free]
    rfl
  · obtain ⟨entry, start⟩ := Option.ne_none_iff_exists'.mp (mt h.mp free)
    rw [if_neg free, start]
    rfl

theorem components_eq (path base : String) :
    components path base = (split (resolve path.toList base.toList)).map String.ofList := rfl

theorem resolve_nil (path : List Char) : resolve path [] = path.map forwardSlash := by
  unfold resolve
  exact if_neg fun under => under.2 rfl

theorem resolve_relative (relative : IsRelative spec) (filled : base ≠ "") : resolve spec.toList base.toList =
    trimSlashes (base.toList.map forwardSlash) ++ '/' :: spec.toList.map forwardSlash := by
  unfold resolve
  exact if_pos ⟨isRelative_iff.mp relative, by simpa using filled⟩

theorem resolve_rooted (rooted : ¬ IsRelative spec) (base : List Char) :
    resolve spec.toList base = spec.toList.map forwardSlash := by
  unfold resolve
  exact if_neg fun under => rooted (isRelative_iff.mpr under.1)

theorem components_of_relative (relative : IsRelative spec) :
    components spec "" = (walk [] (spec.toList.map forwardSlash)).map String.ofList := by
  obtain ⟨start, drive⟩ := root_eq_none_iff.mp (isRelative_iff.mp relative)
  rw [components_eq, String.toList_empty, resolve_nil, split_of_rootless (splitRoot_of_rootless start drive)]

/-- The components of a relative path go on, one after another, from the components of its base. -/
theorem components_relative (relative : IsRelative spec) (filled : base ≠ "") : components spec base =
    (components spec "").foldl (enter (if IsRelative base then 0 else 1)) (components base "") := by
  have nonempty : base.toList.map forwardSlash ≠ [] := by simpa using filled
  obtain ⟨root, below⟩ := splitRoot_under nonempty
  have count : (splitRoot (base.toList.map forwardSlash)).1.toList.length = if IsRelative base then 0 else 1 :=
    length_root isRelative_iff.symm
  have move : ∀ name ∈ walk [] (spec.toList.map forwardSlash), Moves name := fun _ member => (mem_walk member).2
  have start : components base "" = ((splitRoot (base.toList.map forwardSlash)).1.toList ++
      walk [] (splitRoot (base.toList.map forwardSlash)).2).map String.ofList := by
    rw [components_eq, String.toList_empty, resolve_nil, split_eq]
  rw [start, components_of_relative relative, ← count, foldl_enter move, ← walk_eq_foldl]
  rw [components_eq, resolve_relative relative filled, split_eq, root, below]

theorem components_relative_crossing : IsRelative "./../.././x/..\\y//" ∧ "C:a\\b/" ≠ "" ∧
    components "./../.././x/..\\y//" "C:a\\b/" = ["C:", "y"] ∧
    components "./../.././x/..\\y//" "C:a\\b/" =
      (components "./../.././x/..\\y//" "").foldl (enter (if IsRelative "C:a\\b/" then 0 else 1))
        (components "C:a\\b/" "") := by
  have relative : IsRelative "./../.././x/..\\y//" := by decide
  exact ⟨relative, by decide, by decide, components_relative relative (by decide)⟩

end CompilerAdapter.Path
