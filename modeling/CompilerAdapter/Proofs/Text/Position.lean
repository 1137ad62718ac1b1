import CompilerAdapter.Text.Position

/-!
# Positions are places in the text

An offset within a text has a line and a character that are not negative, and no greater than the text is long.
-/

namespace CompilerAdapter

theorem length_laterLineStarts_le (offset : Nat) (text : List Char) :
    (laterLineStarts offset text).length ≤ text.length := by
  induction text generalizing offset with
  | nil => exact Nat.le_refl 0
  | cons c text ih =>
    have later := ih (offset + 1)
    unfold laterLineStarts
    split
    · rw [List.length_cons, List.length_cons]
      omega
    · rw [List.length_cons]
      omega

/-- The starts up to an offset: the first of all, and later ones. -/
theorem takeWhile_lineStarts (text : List Char) (offset : Nat) :
    (lineStarts text).takeWhile (· ≤ offset) = 0 :: (laterLineStarts 0 text).takeWhile (· ≤ offset) :=
  List.takeWhile_cons_of_pos (by simp)

theorem line_bounds (text : List Char) (offset : Nat) :
    0 ≤ (positionIn (lineStarts text) offset).line ∧ (positionIn (lineStarts text) offset).line ≤ text.length := by
  have starts := length_laterLineStarts_le 0 text
  have fewer := (List.takeWhile_sublist (l := laterLineStarts 0 text) (· ≤ offset)).length_le
  unfold positionIn
  dsimp only
  rw [takeWhile_lineStarts, List.length_cons]
  omega

theorem character_bounds (text : List Char) (offset : Nat) :
    0 ≤ (positionIn (lineStarts text) offset).character ∧ (positionIn (lineStarts text) offset).character ≤ offset := by
  have before : ((lineStarts text).takeWhile (· ≤ offset)).getLastD 0 ≤ offset := by
    have all := List.all_eq_true.mp (List.all_takeWhile (l := lineStarts text) (p := (· ≤ offset)))
    rw [takeWhile_lineStarts] at all ⊢
    rw [List.getLastD_cons]
    exact of_decide_eq_true (all _ List.getLastD_mem_cons)
  unfold positionIn
  dsimp only
  omega

theorem positionOf_bounds {file : String} {text : List Char} {offset : Int} {p : Position}
    (found : positionOf file text offset = .ok p) :
    0 ≤ p.line ∧ p.line ≤ text.length ∧ 0 ≤ p.character ∧ p.character ≤ text.length := by
  unfold positionOf at found
  split at found
  · cases found
  split at found
  · cases found
  obtain rfl := Except.ok.inj found
  have line := line_bounds text offset.toNat
  have character := character_bounds text offset.toNat
  omega

end CompilerAdapter
