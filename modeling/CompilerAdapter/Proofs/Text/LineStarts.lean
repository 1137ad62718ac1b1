import CompilerAdapter.Proofs.Text.Position

/-!
# The line of an offset

Lines start at ascending offsets, so the line of an offset is the last one that starts at or before it, and the
character counts from there. Every offset within a text has such a place, and no other offset has one:
`positionOf_cases`.
-/

namespace CompilerAdapter

/-- A position lies `offset` characters into a text, on the last line that starts at or before it. -/
def Position.IsPlaceOf (p : Position) (text : List Char) (offset : Int) : Prop :=
  ∃ line start character : Nat, p = ⟨line, character⟩ ∧ (lineStarts text)[line]? = some start ∧
    (start + character : Int) = offset ∧
    ∀ (later start' : Nat), line < later → (lineStarts text)[later]? = some start' → offset < start'

theorem lt_of_mem_laterLineStarts {offset start : Nat} {text : List Char}
    (member : start ∈ laterLineStarts offset text) : offset < start := by
  induction text generalizing offset with
  | nil => cases member
  | cons c text ih =>
    unfold laterLineStarts at member
    split at member
    · rcases List.mem_cons.mp member with rfl | behind
      · omega
      · have := ih behind
        omega
    · have := ih member
      omega

theorem pairwise_laterLineStarts (offset : Nat) (text : List Char) :
    (laterLineStarts offset text).Pairwise (· < ·) := by
  induction text generalizing offset with
  | nil => exact .nil
  | cons c text ih =>
    unfold laterLineStarts
    split
    · exact .cons (fun start member => lt_of_mem_laterLineStarts member) (ih (offset + 1))
    · exact ih (offset + 1)

theorem pairwise_lineStarts (text : List Char) : (lineStarts text).Pairwise (· < ·) :=
  .cons (fun _ member => lt_of_mem_laterLineStarts member) (pairwise_laterLineStarts 0 text)

theorem le_iff_lt_length_takeWhile {starts : List Nat} (ascending : starts.Pairwise (· < ·)) {offset index start : Nat}
    (placed : starts[index]? = some start) :
    start ≤ offset ↔ index < (starts.takeWhile (· ≤ offset)).length := by
  induction starts generalizing index with
  | nil => cases placed
  | cons first starts ih =>
    rw [List.pairwise_cons] at ascending
    have least : first ≤ start := by
      rcases List.mem_cons.mp (List.mem_of_getElem? placed) with same | behind
      · exact Nat.le_of_eq same.symm
      · exact Nat.le_of_lt (ascending.1 start behind)
    by_cases early : first ≤ offset
    · rw [List.takeWhile_cons_of_pos (by simpa using early), List.length_cons]
      cases index with
      | zero =>
        have same : first = start := Option.some.inj placed
        omega
      | succ index =>
        have later := ih ascending.2 placed
        omega
    · rw [List.takeWhile_cons_of_neg (by simpa using early), List.length_nil]
      omega

theorem isPlaceOf_positionIn (text : List Char) (offset : Nat) :
    (positionIn (lineStarts text) offset).IsPlaceOf text offset := by
  have ascending := pairwise_lineStarts text
  obtain ⟨line, count⟩ : ∃ line, ((lineStarts text).takeWhile (· ≤ offset)).length = line + 1 := by
    rw [takeWhile_lineStarts, List.length_cons]
    exact ⟨_, rfl⟩
  obtain ⟨start, last⟩ : ∃ start, ((lineStarts text).takeWhile (· ≤ offset))[line]? = some start :=
    ⟨_, List.getElem?_eq_getElem (by omega)⟩
  have placed : (lineStarts text)[line]? = some start := by
    obtain ⟨behind, whole⟩ := List.takeWhile_prefix (l := lineStarts text) (· ≤ offset)
    rw [← whole, List.getElem?_append_left (by omega)]
    exact last
  have before : start ≤ offset := by
    rw [le_iff_lt_length_takeWhile ascending placed, count]
    exact Nat.lt_succ_self line
  have reached : ((lineStarts text).takeWhile (· ≤ offset)).getLastD 0 = start := by
    rw [List.getLastD_eq_getLast?, List.getLast?_eq_getElem?, count, Nat.add_sub_cancel, last]
    rfl
  refine ⟨line, start, offset - start, ?_, placed, by omega, fun later start' behind placed' => ?_⟩
  · unfold positionIn
    dsimp only
    rw [reached, count, Position.mk.injEq]
    omega
  · have beyond : start' ≤ offset ↔ later < ((lineStarts text).takeWhile (· ≤ offset)).length :=
      le_iff_lt_length_takeWhile ascending placed'
    omega

/-! ### Places of several offsets -/

section Places

variable {p q : Position} {text : List Char} {offset later : Int}

theorem Position.IsPlaceOf.line_le (place : p.IsPlaceOf text offset) (place' : q.IsPlaceOf text later)
    (before : offset ≤ later) : p.line ≤ q.line := by
  obtain ⟨line, start, character, rfl, placed, reached, _⟩ := place
  obtain ⟨line', start', character', rfl, _, _, beyond'⟩ := place'
  dsimp only
  refine Int.not_lt.mp fun behind => ?_
  have := beyond' line start (by omega) placed
  omega

theorem Position.IsPlaceOf.character_sub (place : p.IsPlaceOf text offset) (place' : q.IsPlaceOf text later)
    (same : p.line = q.line) : q.character - p.character = later - offset := by
  obtain ⟨line, start, character, rfl, placed, reached, _⟩ := place
  obtain ⟨line', start', character', rfl, placed', reached', _⟩ := place'
  dsimp only at same ⊢
  obtain rfl : line = line' := by omega
  obtain rfl := Option.some.inj (placed.symm.trans placed')
  omega

/-- Places come in the order of their offsets. -/
theorem Position.IsPlaceOf.lt (place : p.IsPlaceOf text offset) (place' : q.IsPlaceOf text later)
    (before : offset < later) : p.line < q.line ∨ p.line = q.line ∧ p.character < q.character := by
  have ordered := place.line_le place' (Int.le_of_lt before)
  rcases Int.lt_or_eq_of_le ordered with earlier | same
  · exact .inl earlier
  · have moved := place.character_sub place' same
    exact .inr ⟨same, by omega⟩

theorem Position.IsPlaceOf.unique (place : p.IsPlaceOf text offset) (place' : q.IsPlaceOf text offset) : p = q := by
  have same : p.line = q.line :=
    Int.le_antisymm (place.line_le place' (Int.le_refl _)) (place'.line_le place (Int.le_refl _))
  have moved := place.character_sub place' same
  obtain ⟨line, character⟩ := p
  obtain ⟨line', character'⟩ := q
  dsimp only at same moved
  rw [Position.mk.injEq]
  exact ⟨same, by omega⟩

end Places

/-! ### Offsets inside of a text and outside -/

/-- An offset in a text has a place; one outside is named in the error. -/
theorem positionOf_cases (file : String) (text : List Char) (offset : Int) :
    (0 ≤ offset ∧ offset ≤ text.length ∧ ∃ p, positionOf file text offset = .ok p ∧ p.IsPlaceOf text offset) ∨
    ((text.length : Int) < offset ∧ positionOf file text offset = .error (.pastEnd offset file text.length)) ∨
    (offset < 0 ∧ positionOf file text offset = .error (.negative offset)) := by
  unfold positionOf
  by_cases beyond : (text.length : Int) < offset
  · right; left
    exact ⟨beyond, if_pos beyond⟩
  rw [if_neg beyond]
  by_cases negative : offset < 0
  · right; right
    exact ⟨negative, if_pos negative⟩
  rw [if_neg negative]
  left
  have place := isPlaceOf_positionIn text offset.toNat
  rw [Int.toNat_of_nonneg (by omega)] at place
  exact ⟨by omega, by omega, _, rfl, place⟩

theorem exists_positionOf (file : String) {text : List Char} {offset : Nat} (inside : offset ≤ text.length) :
    ∃ p, positionOf file text offset = .ok p ∧ p.IsPlaceOf text offset := by
  rcases positionOf_cases file text offset with ⟨_, _, found⟩ | ⟨beyond, _⟩ | ⟨negative, _⟩
  · exact found
  · omega
  · omega

theorem positionOf_of_isPlaceOf (file : String) {text : List Char} {offset : Nat} {p : Position}
    (place : p.IsPlaceOf text offset) (inside : offset ≤ text.length) : positionOf file text offset = .ok p := by
  obtain ⟨q, found, place'⟩ := exists_positionOf file inside
  rw [found, place.unique place']

end CompilerAdapter
