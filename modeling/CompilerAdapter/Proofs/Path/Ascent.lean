import Mathlib.Order.Bounds.Basic
import CompilerAdapter.Proofs.Path.NormalForm

/-!
# Ways up from a root

A way up takes away the name before it; where there is none it stays. So below its root a path keeps as many ways up as
they outnumber the names before them at most: `rooted_ascent`.
-/

namespace CompilerAdapter.Path

variable {names parts : List (List Char)} {part : List Char}

/-! ### Ways up and names -/

instance : DecidablePred Moves := fun _ => inferInstanceAs (Decidable (_ ∧ _))

/-- A part that leads into a directory. -/
def Enters (part : List Char) : Prop := Moves part ∧ part ≠ parent

instance : DecidablePred Enters := fun _ => inferInstanceAs (Decidable (_ ∧ _))

/-- By how much the ways up among some parts outnumber the names. -/
def surplus (parts : List (List Char)) : Int :=
  (parts.count parent : Int) - (parts.countP fun part => Enters part : Nat)

/-- The surpluses that come up along some parts. -/
def surpluses (parts : List (List Char)) : Set Int := {s | ∃ front, front <+: parts ∧ surplus front = s}

theorem surplus_concat (parts : List (List Char)) (part : List Char) : surplus (parts ++ [part]) =
    surplus parts + (if part = parent then 1 else 0) - if Enters part then 1 else 0 := by
  unfold surplus
  rw [List.count_append, List.countP_append, List.count_singleton, List.countP_singleton]
  simp only [beq_iff_eq, decide_eq_true_eq]
  split <;> split <;> push_cast <;> omega

theorem surpluses_nil : surpluses [] = {0} := by
  ext s
  constructor
  · rintro ⟨front, start, rfl⟩
    rw [List.prefix_nil.mp start]
    rfl
  · rintro rfl
    exact ⟨[], List.prefix_rfl, rfl⟩

theorem surpluses_concat (parts : List (List Char)) (part : List Char) :
    surpluses (parts ++ [part]) = insert (surplus (parts ++ [part])) (surpluses parts) := by
  ext s
  constructor
  · rintro ⟨front, start, rfl⟩
    rcases List.prefix_concat_iff.mp start with rfl | before
    · exact .inl rfl
    · exact .inr ⟨front, before, rfl⟩
  · rintro (rfl | ⟨front, before, rfl⟩)
    · exact ⟨_, List.prefix_rfl, rfl⟩
    · exact ⟨front, before.trans (List.prefix_append _ _), rfl⟩

/-! ### Going up along a path -/

/-- What some parts come to: `height` ways up, their greatest surplus, and then the names that are left. -/
structure Ascent (parts : List (List Char)) (height : Nat) (names : List (List Char)) : Prop where
  reached : parts.foldl push [] = List.replicate height parent ++ names
  plain : parent ∉ names
  left : (names.length : Int) = height - surplus parts
  greatest : IsGreatest (surpluses parts) height

theorem Ascent.nil : Ascent [] 0 [] where
  reached := rfl
  plain := List.not_mem_nil
  left := rfl
  greatest := by
    rw [surpluses_nil]
    exact isGreatest_singleton

variable {height : Nat}

theorem Ascent.greatest_concat (ascent : Ascent parts height names) (part : List Char) :
    IsGreatest (surpluses (parts ++ [part])) (max (surplus (parts ++ [part])) height) := by
  rw [surpluses_concat]
  exact ascent.greatest.insert _

theorem Ascent.stay (ascent : Ascent parts height names) (stays : ¬ Moves part) :
    Ascent (parts ++ [part]) height names := by
  have level : surplus (parts ++ [part]) = surplus parts := by
    have other : part ≠ parent := by
      rintro rfl
      exact stays (by decide)
    rw [surplus_concat, if_neg other, if_neg fun enters => stays enters.1]
    omega
  have left := ascent.left
  refine ⟨?_, ascent.plain, ?_, ?_⟩
  · rw [List.foldl_concat, push_of_not_moves stays]
    exact ascent.reached
  · rw [level]
    exact left
  · have greatest := ascent.greatest_concat part
    rwa [level, max_eq_right (by omega)] at greatest

theorem Ascent.enter (ascent : Ascent parts height names) (enters : Enters part) :
    Ascent (parts ++ [part]) height (names ++ [part]) := by
  have lower : surplus (parts ++ [part]) = surplus parts - 1 := by
    rw [surplus_concat, if_neg enters.2, if_pos enters]
    omega
  have left := ascent.left
  refine ⟨?_, ?_, ?_, ?_⟩
  · rw [List.foldl_concat, ascent.reached, push_of_ne_parent enters.1 enters.2, List.append_assoc]
  · rw [List.mem_append, not_or]
    exact ⟨ascent.plain, fun member => enters.2 (List.mem_singleton.mp member).symm⟩
  · rw [lower, List.length_append, List.length_singleton]
    omega
  · have greatest := ascent.greatest_concat part
    rwa [lower, max_eq_right (by omega)] at greatest

theorem surplus_up (parts : List (List Char)) : surplus (parts ++ [parent]) = surplus parts + 1 := by
  rw [surplus_concat, if_pos rfl, if_neg fun enters => enters.2 rfl]
  omega

theorem Ascent.up (ascent : Ascent parts height []) : Ascent (parts ++ [parent]) (height + 1) [] := by
  have left := ascent.left
  rw [List.length_nil] at left
  refine ⟨?_, List.not_mem_nil, ?_, ?_⟩
  · rw [List.foldl_concat, ascent.reached, List.append_nil, List.append_nil, push_replicate_parent]
  · rw [surplus_up, List.length_nil]
    omega
  · have greatest := ascent.greatest_concat parent
    rw [surplus_up, max_eq_left (by omega)] at greatest
    rwa [show ((height + 1 : Nat) : Int) = surplus parts + 1 by omega]

theorem Ascent.back {last : List Char} (ascent : Ascent parts height (names ++ [last])) :
    Ascent (parts ++ [parent]) height names := by
  have plain := ascent.plain
  rw [List.mem_append, not_or] at plain
  have named : last ≠ parent := fun same => plain.2 (List.mem_singleton.mpr same.symm)
  have left := ascent.left
  rw [List.length_append, List.length_singleton] at left
  refine ⟨?_, plain.1, ?_, ?_⟩
  · rw [List.foldl_concat, ascent.reached, ← List.append_assoc, push_concat_parent named]
  · rw [surplus_up]
    omega
  · have greatest := ascent.greatest_concat parent
    rwa [surplus_up, max_eq_right (by omega)] at greatest

theorem exists_ascent (parts : List (List Char)) : ∃ height names, Ascent parts height names := by
  induction parts using List.reverseRecOn with
  | nil => exact ⟨0, [], Ascent.nil⟩
  | append_singleton parts part ih =>
    obtain ⟨height, names, ascent⟩ := ih
    by_cases moves : Moves part
    · by_cases up : part = parent
      · subst up
        rcases List.eq_nil_or_concat names with rfl | ⟨front, last, rfl⟩
        · exact ⟨height + 1, [], ascent.up⟩
        · rw [List.concat_eq_append] at ascent
          exact ⟨height, front, ascent.back⟩
      · exact ⟨height, names ++ [part], ascent.enter ⟨moves, up⟩⟩
    · exact ⟨height, names, ascent.stay moves⟩

/-! ### Paths below a root -/

/-- The parts of a path between its slashes, of either kind, behind its root. -/
def partsBelow (path : String) : List (List Char) := splitAtEach '/' (splitRoot (path.toList.map forwardSlash)).2

/-- The parts that a path leads along: those of the base come first if the path is put under it. -/
def trail (base spec : String) : List (List Char) :=
  if IsRelative spec then partsBelow base ++ partsBelow spec else partsBelow spec

theorem walk_resolve (base spec : String) :
    walk [] (splitRoot (resolve spec.toList base.toList)).2 = (trail base spec).foldl push [] := by
  unfold trail
  by_cases relative : IsRelative spec
  · rw [if_pos relative, List.foldl_append]
    obtain ⟨start, drive⟩ := root_eq_none_iff.mp (isRelative_iff.mp relative)
    have bare : partsBelow spec = splitAtEach '/' (spec.toList.map forwardSlash) := by
      unfold partsBelow
      rw [splitRoot_of_rootless start drive]
    rw [bare]
    by_cases empty : base = ""
    · subst empty
      rw [String.toList_empty, resolve_nil, splitRoot_of_rootless start drive]
      rfl
    · rw [resolve_relative relative empty, (splitRoot_under (by simpa using empty)).2]
      rfl
  · rw [if_neg relative, resolve_rooted relative]
    rfl

/-- Some front of a path has more ways up than names if the greatest surplus is not zero. -/
theorem Ascent.height_pos_iff (ascent : Ascent parts height names) :
    0 < height ↔ ∃ front, front <+: parts ∧ 0 < surplus front := by
  constructor
  · intro climbs
    obtain ⟨front, start, reached⟩ := ascent.greatest.1
    exact ⟨front, start, by omega⟩
  · rintro ⟨front, start, more⟩
    have bound : surplus front ≤ height := ascent.greatest.2 ⟨front, start, rfl⟩
    omega

theorem ne_up_of_root {root : String} (start : root = "" ∨ IsDrive root) : root ≠ ".." := by
  rintro rfl
  rcases start with none | ⟨letter, -, drive⟩
  · exact absurd none (by decide)
  · have colon : parent = [letter, ':'] := String.ofList_injective drive
    exact absurd (List.cons.inj (List.cons.inj colon).2).1 (by decide)

/-- A rooted path climbs above its root by the greatest surplus of ways up along it. -/
theorem rooted_ascent (base spec : String) (rooted : ¬ IsRelative spec ∨ ¬ IsRelative base) : ∃ root height names,
    components spec base = root :: (List.replicate height ".." ++ names) ∧ (root = "" ∨ IsDrive root) ∧
    ".." ∉ names ∧ IsGreatest (surpluses (trail base spec)) (height : Nat) ∧
    (".." ∈ components spec base ↔ ∃ front, front <+: trail base spec ∧ 0 < surplus front) := by
  obtain ⟨height, names, ascent⟩ := exists_ascent (trail base spec)
  have some : (splitRoot (resolve spec.toList base.toList)).1 ≠ none := by
    rw [ne_eq, resolve_root_eq_none_iff, not_and_or]
    exact rooted
  obtain ⟨entry, start⟩ := Option.ne_none_iff_exists'.mp some
  have root : String.ofList entry = "" ∨ IsDrive (String.ofList entry) := root_text start
  have whole : components spec base =
      String.ofList entry :: (List.replicate height ".." ++ names.map String.ofList) := by
    rw [components_eq, split_eq, start, walk_resolve, ascent.reached]
    simp [parent]
  have plain : ".." ∉ names.map String.ofList := by
    intro member
    obtain ⟨name, listed, same⟩ := List.mem_map.mp member
    obtain rfl : name = parent := String.ofList_injective same
    exact ascent.plain listed
  refine ⟨_, height, _, whole, root, plain, ascent.greatest, ?_⟩
  rw [whole, ← ascent.height_pos_iff, List.mem_cons, List.mem_append, List.mem_replicate]
  have other := ne_up_of_root root
  constructor
  · rintro (same | ⟨climbs, -⟩ | named)
    · exact absurd same.symm other
    · exact Nat.pos_of_ne_zero climbs
    · exact absurd named plain
  · intro climbs
    exact .inr (.inl ⟨Nat.ne_of_gt climbs, rfl⟩)

theorem rooted_ascent_crossing : ¬ IsRelative "/app/src" ∧
    components "..\\x/../../../lib" "/app/src" = ["", "..", "lib"] ∧
    IsGreatest (surpluses (trail "/app/src" "..\\x/../../../lib")) 1 := by
  have rooted : ¬ IsRelative "/app/src" := by decide
  have resolved : components "..\\x/../../../lib" "/app/src" = ["", "..", "lib"] := by decide
  obtain ⟨root, height, names, whole, -, plain, greatest, -⟩ :=
    rooted_ascent "/app/src" "..\\x/../../../lib" (.inr rooted)
  refine ⟨rooted, resolved, ?_⟩
  rw [resolved] at whole
  obtain ⟨-, behind⟩ := List.cons.inj whole
  match height with
  | 0 =>
    obtain rfl : ["..", "lib"] = names := behind
    exact absurd List.mem_cons_self plain
  | 1 => exact greatest
  | _ + 2 => exact absurd (List.cons.inj (List.cons.inj behind).2).1 (by decide)

/-- Ways up from the root itself stay. -/
theorem rooted_path_climbs :
    ¬ ∀ spec base : String, (¬ IsRelative spec ∨ ¬ IsRelative base) → ".." ∉ components spec base := by
  intro never
  exact never "/.." "" (.inl (by decide)) (by decide)

end CompilerAdapter.Path
