import CompilerAdapter.Path.Components
import CompilerAdapter.Proofs.Text.Parts
import Mathlib.Data.List.DropRight

/-!
# Path components

The names of a path are pushed one after another (`walk`), below the root that the path starts with (`splitRoot`).
Where a path leads to from a directory depends on the path only through the names that are left of it on its own:
`walk_eq_foldl`.
-/

namespace CompilerAdapter.Path

variable {names parts : List (List Char)} {name path rest : List Char}

/-! ### Names one after another -/

def parent : List Char := ['.', '.']

/-- A name that leads away from where a path is. -/
def Moves (name : List Char) : Prop := name ≠ [] ∧ name ≠ ['.']

theorem push_of_not_moves (stays : ¬ Moves name) : push names name = names := by
  unfold push
  apply if_pos
  by_cases empty : name = []
  · exact .inl empty
  · exact .inr (Decidable.byContradiction fun other => stays ⟨empty, other⟩)

theorem push_of_ne_parent (moves : Moves name) (plain : name ≠ parent) : push names name = names ++ [name] := by
  unfold push
  rw [if_neg (not_or.mpr moves), if_neg fun back => plain back.1]

theorem push_parent (top : names = [] ∨ names.getLast? = some parent) : push names parent = names ++ [parent] := by
  unfold push
  rw [if_neg (by decide), if_neg]
  intro back
  exact top.elim back.2.1 back.2.2

theorem push_concat_parent (plain : name ≠ parent) : push (names ++ [name]) parent = names := by
  unfold push
  rw [if_neg (by decide), if_pos]
  · exact List.dropLast_concat
  · exact ⟨rfl, by simp, by rwa [List.getLast?_concat, ne_eq, Option.some.injEq]⟩

theorem mem_push {other : List Char} (h : other ∈ push names name) : other ∈ names ∨ (other = name ∧ Moves name) := by
  unfold push at h
  split at h
  · exact .inl h
  · rename_i moves
    split at h
    · exact .inl (List.dropLast_subset names h)
    · rcases List.mem_append.mp h with old | new
      · exact .inl old
      · exact .inr ⟨List.mem_singleton.mp new, not_or.mp moves⟩

theorem mem_foldl_push (h : name ∈ parts.foldl push names) : name ∈ names ∨ (name ∈ parts ∧ Moves name) := by
  induction parts generalizing names with
  | nil => exact .inl h
  | cons part rest ih =>
    rcases ih h with pushed | ⟨later, moves⟩
    · rcases mem_push pushed with old | ⟨rfl, moves⟩
      · exact .inl old
      · exact .inr ⟨List.mem_cons_self, moves⟩
    · exact .inr ⟨List.mem_cons_of_mem _ later, moves⟩

/-- Names that were put together elsewhere lead on as the names did that they were put together from. -/
theorem foldl_push_push {start : List (List Char)} (move : ∀ entry ∈ names, Moves entry) :
    (push names name).foldl push start = push (names.foldl push start) name := by
  by_cases moves : Moves name
  · by_cases back : name = parent
    · subst back
      rcases List.eq_nil_or_concat names with rfl | ⟨front, last, rfl⟩
      · rw [push_parent (.inl rfl)]
        rfl
      · rw [List.concat_eq_append]
        by_cases top : last = parent
        · rw [push_parent (.inr (by simp [top])), List.foldl_append]
          rfl
        · -- The last name is left again, wherever it was entered.
          have entered : Moves last := move last (by simp)
          rw [push_concat_parent top, List.foldl_append, List.foldl_cons, List.foldl_nil,
            push_of_ne_parent entered top, push_concat_parent top]
    · rw [push_of_ne_parent moves back, List.foldl_append]
      rfl
  · rw [push_of_not_moves moves, push_of_not_moves moves]

theorem foldl_push_foldl {start : List (List Char)} (move : ∀ entry ∈ names, Moves entry) :
    (parts.foldl push names).foldl push start = parts.foldl push (names.foldl push start) := by
  induction parts generalizing names with
  | nil => rfl
  | cons part rest ih =>
    rw [List.foldl_cons, List.foldl_cons, ih, foldl_push_push move]
    intro entry pushed
    rcases mem_push pushed with old | ⟨rfl, moves⟩
    · exact move entry old
    · exact moves

/-! ### Walking along a path -/

/-- Goes on from a directory by the names of a path, whose slashes lead nowhere by themselves. -/
def walk (names : List (List Char)) (path : List Char) : List (List Char) := (splitAtEach '/' path).foldl push names

theorem walk_append_slash : walk names (path ++ '/' :: rest) = walk (walk names path) rest := by
  unfold walk
  rw [splitAtEach_append_cons, List.foldl_append]

@[simp] theorem walk_nil : walk names [] = names := push_of_not_moves fun moves => moves.1 rfl

@[simp] theorem walk_slash : walk names ('/' :: rest) = walk names rest := by
  rw [← List.nil_append ('/' :: rest), walk_append_slash, walk_nil]

theorem mem_walk (h : name ∈ walk [] path) : name ∈ splitAtEach '/' path ∧ Moves name := by
  rcases mem_foldl_push h with old | new
  · exact absurd old List.not_mem_nil
  · exact new

/-- Where a path leads to is where its own names lead to. -/
theorem walk_eq_foldl : walk names path = (walk [] path).foldl push names := by
  have none : ∀ entry ∈ ([] : List (List Char)), Moves entry := fun _ member => absurd member List.not_mem_nil
  exact (foldl_push_foldl none).symm

theorem walk_trimSlashes : walk names (trimSlashes path) = walk names path := by
  change walk names (path.rdropWhile (· == '/')) = _
  induction path using List.reverseRecOn with
  | nil => rfl
  | append_singleton front c ih =>
    rw [List.rdropWhile_concat]
    split
    · rename_i slash
      obtain rfl := beq_iff_eq.mp slash
      rw [ih, walk_append_slash, walk_nil]
    · rfl

theorem trimSlashes_cons {c : Char} : trimSlashes (c :: rest) =
    if trimSlashes rest = [] ∧ c = '/' then [] else c :: trimSlashes rest := by
  unfold trimSlashes
  rw [List.reverse_cons, List.dropWhile_append]
  by_cases empty : rest.reverse.dropWhile (· == '/') = []
  · by_cases slash : c = '/' <;> simp [empty, slash]
  · simp [empty]

/-! ### Roots -/

theorem ne_slash_of_alpha {letter : Char} (alpha : letter.isAlpha = true) : letter ≠ '/' := by
  rintro rfl
  exact absurd alpha (by decide)

theorem splitRoot_slash : splitRoot ('/' :: rest) = (some [], rest) := rfl

/-- A slash behind a drive belongs to the root, which makes no difference to where the rest leads. -/
theorem splitRoot_drive {letter : Char} (alpha : letter.isAlpha = true) : ∃ below,
    splitRoot (letter :: ':' :: rest) = (some [letter, ':'], below) ∧ ∀ names, walk names below = walk names rest := by
  unfold splitRoot
  split
  · rename_i start
    cases start
  · rename_i start
    exact absurd (List.cons.inj start).1 (ne_slash_of_alpha alpha)
  · rename_i start
    obtain ⟨rfl, rfl⟩ := List.cons.inj start
    split
    · rename_i below same
      obtain rfl := (List.cons.inj same).2
      exact ⟨below, if_pos alpha, fun _ => walk_slash.symm⟩
    · rename_i same
      obtain rfl := (List.cons.inj same).2
      exact ⟨rest, if_pos alpha, fun _ => rfl⟩
    · rename_i other
      exact absurd rfl (other rest)

theorem splitRoot_of_rootless (start : ∀ rest, path ≠ '/' :: rest)
    (drive : ∀ letter rest, path = letter :: ':' :: rest → letter.isAlpha = false) : splitRoot path = (none, path) := by
  fun_cases splitRoot path with
  | case1 => rfl
  | case2 rest => exact absurd rfl (start rest)
  | case3 letter _ below alpha => exact absurd alpha (by simp [drive letter _ rfl])
  | case4 => rfl
  | case5 letter _ below _ alpha => exact absurd alpha (by simp [drive letter _ rfl])
  | case6 => rfl
  | case7 => rfl

/-- How a path starts: with a slash, with a drive, or with a name. -/
theorem root_cases (path : List Char) : (∃ rest, path = '/' :: rest) ∨
    (∃ letter rest, letter.isAlpha = true ∧ path = letter :: ':' :: rest) ∨ splitRoot path = (none, path) := by
  by_cases start : ∃ rest, path = '/' :: rest
  · exact .inl start
  · by_cases drive : ∃ letter rest, letter.isAlpha = true ∧ path = letter :: ':' :: rest
    · exact .inr (.inl drive)
    · refine .inr (.inr (splitRoot_of_rootless (fun rest same => start ⟨rest, same⟩) fun letter rest same => ?_))
      exact Bool.eq_false_iff.mpr fun alpha => drive ⟨letter, rest, alpha, same⟩

theorem root_entry {entry : List Char} (h : entry ∈ (splitRoot path).1) :
    entry = [] ∨ ∃ letter, letter.isAlpha = true ∧ entry = [letter, ':'] := by
  rcases root_cases path with ⟨rest, rfl⟩ | ⟨letter, rest, alpha, rfl⟩ | rootless
  · exact .inl (Option.some.inj h).symm
  · obtain ⟨below, cut, _⟩ := splitRoot_drive alpha
    rw [cut] at h
    exact .inr ⟨letter, alpha, (Option.some.inj h).symm⟩
  · rw [rootless] at h
    cases h

theorem splitRoot_suffix (path : List Char) : (splitRoot path).2 <:+ path := by
  fun_cases splitRoot path with
  | case1 => exact List.suffix_refl _
  | case2 rest => exact List.suffix_cons _ _
  | case3 letter _ below _ => exact ⟨[letter, ':', '/'], rfl⟩
  | case4 => exact List.suffix_refl _
  | case5 letter _ below _ _ => exact ⟨[letter, ':'], rfl⟩
  | case6 => exact List.suffix_refl _
  | case7 => exact List.suffix_refl _

theorem split_eq (path : List Char) : split path = (splitRoot path).1.toList ++ walk [] (splitRoot path).2 := rfl

theorem split_slash : split ('/' :: rest) = [] :: walk [] rest := rfl

theorem split_drive {letter : Char} (alpha : letter.isAlpha = true) :
    split (letter :: ':' :: rest) = [letter, ':'] :: walk [] rest := by
  obtain ⟨below, cut, same⟩ := splitRoot_drive alpha
  rw [split_eq, cut, same]
  rfl

theorem split_of_rootless (rootless : splitRoot path = (none, path)) : split path = walk [] path := by
  rw [split_eq, rootless]
  rfl

/-! ### No slashes -/

theorem apart_walk : Apart '/' (walk [] path) := fun name member =>
  apart_splitAtEach path name (mem_walk member).1

theorem root_no_slash (path : List Char) : Apart '/' (splitRoot path).1.toList := by
  fun_cases splitRoot path <;> simp_all <;> exact Ne.symm ‹_›

/-- The components of a path are names without a slash. -/
theorem apart_split (path : List Char) : Apart '/' (split path) := by
  rw [split_eq, apart_append]
  exact ⟨root_no_slash path, apart_walk⟩

end CompilerAdapter.Path
