import CompilerAdapter.Proofs.Text.Concatenation

/-!
# Lines joined with breaks

Lines that are joined with breaks, of whichever kinds, are the lines of the text they make, and positions in it tell
the line and the character there: `positionOf_joinLines`. Only a CR and the LF behind an empty line would be one break.
-/

namespace CompilerAdapter

/-- A line and the break behind it. -/
structure EndedLine where
  content : List Char
  stop : LineBreak

def EndedLine.text (line : EndedLine) : List Char := line.content ++ line.stop.text

def joinLines (ended : List EndedLine) (last : List Char) : List Char := ended.flatMap EndedLine.text ++ last

/-- The lines without their breaks, at least one. -/
def lineContents (ended : List EndedLine) (last : List Char) : List (List Char) := ended.map (·.content) ++ [last]

/-- How many characters stand in front of a line. -/
def lineOffset (ended : List EndedLine) (index : Nat) : Nat := ((ended.take index).flatMap EndedLine.text).length

/-- No character of the text breaks a line. -/
def Unbroken (text : List Char) : Prop := ∀ c ∈ text, c ≠ '\r' ∧ c ≠ '\n' ∧ c ≠ '\u2028' ∧ c ≠ '\u2029'

/-- No CR is followed by an empty line that LF ends. -/
def Separate (ended : List EndedLine) : Prop :=
  ended.IsChain fun line next => ¬ (line.stop = .cr ∧ next.content = [] ∧ next.stop = .lf)

variable {ended : List EndedLine} {last : List Char}

/-! ### Offsets of lines -/

theorem lineOffset_cons (line : EndedLine) (index : Nat) :
    lineOffset (line :: ended) (index + 1) = line.text.length + lineOffset ended index := by
  simp [lineOffset]

theorem lineOffset_succ {index : Nat} {line : EndedLine} (placed : ended[index]? = some line) :
    lineOffset ended (index + 1) = lineOffset ended index + line.text.length := by
  simp [lineOffset, List.take_add_one, placed]

theorem lineOffset_mono {index later : Nat} (before : index ≤ later) :
    lineOffset ended index ≤ lineOffset ended later := by
  obtain ⟨more, rfl⟩ := Nat.exists_eq_add_of_le before
  unfold lineOffset
  rw [List.take_add, List.flatMap_append, List.length_append]
  exact Nat.le_add_right _ _

theorem length_joinLines : (joinLines ended last).length = lineOffset ended ended.length + last.length := by
  simp [joinLines, lineOffset]

theorem LineBreak.length_text_pos (b : LineBreak) : 0 < b.text.length := by
  cases b <;> decide

theorem getElem?_lineContents {index : Nat} {content : List Char}
    (placed : (lineContents ended last)[index]? = some content) :
    (∃ line, ended[index]? = some line ∧ line.content = content) ∨ index = ended.length ∧ content = last := by
  unfold lineContents at placed
  rcases Nat.lt_or_ge index ended.length with before | behind
  · left
    rwa [List.getElem?_append_left (by simpa using before), List.getElem?_map, Option.map_eq_some_iff] at placed
  · right
    rw [List.getElem?_append_right (by simpa using behind), List.length_map, List.getElem?_singleton] at placed
    split at placed
    · exact ⟨by omega, (Option.some.inj placed).symm⟩
    · cases placed

/-- The characters of a line, and its end, lie in the text and in front of the lines behind it. -/
theorem lineOffset_add_length {index : Nat} {content : List Char}
    (placed : (lineContents ended last)[index]? = some content) :
    index ≤ ended.length ∧ lineOffset ended index + content.length ≤ (joinLines ended last).length ∧
      ∀ later, index < later → later ≤ ended.length →
        lineOffset ended index + content.length < lineOffset ended later := by
  rw [length_joinLines]
  rcases getElem?_lineContents placed with ⟨line, found, rfl⟩ | ⟨rfl, rfl⟩
  · have inside := (List.getElem?_eq_some_iff.mp found).1
    have next : lineOffset ended index + line.content.length < lineOffset ended (index + 1) := by
      have stop := line.stop.length_text_pos
      rw [lineOffset_succ found, EndedLine.text, List.length_append]
      omega
    refine ⟨Nat.le_of_lt inside, ?_, fun later before _ => Nat.lt_of_lt_of_le next (lineOffset_mono before)⟩
    have ends : lineOffset ended (index + 1) ≤ lineOffset ended ended.length := lineOffset_mono inside
    omega
  · exact ⟨Nat.le_refl _, Nat.le_refl _, fun later before within => by omega⟩

/-! ### Where the lines start -/

theorem Unbroken.not_isLineEnd {text : List Char} (unbroken : Unbroken text) {c : Char} (member : c ∈ text) :
    ¬ isLineEnd c = true := by
  simp [isLineEnd_iff, unbroken c member]

theorem laterLineStarts_unbroken {text : List Char} (unbroken : Unbroken text) (offset : Nat) :
    laterLineStarts offset text = [] := by
  rw [List.eq_nil_iff_forall_not_mem]
  intro start member
  obtain ⟨index, ⟨c, found, ends, _⟩, _⟩ := mem_laterLineStarts.mp member
  exact unbroken.not_isLineEnd (List.mem_of_getElem? found) ends

theorem laterLineStarts_break (offset : Nat) (b : LineBreak) :
    laterLineStarts offset b.text = [offset + b.text.length] := by
  cases b <;> rfl

theorem LineBreak.getLast?_text {b : LineBreak} (last : b.text.getLast? = some '\r') : b = .cr := by
  obtain ⟨front, c, whole, _, isCr⟩ := b.text_eq
  rw [whole, List.getLast?_concat] at last
  exact isCr (Option.some.inj last)

theorem laterLineStarts_line {line : EndedLine} {back : List Char} (unbroken : Unbroken line.content)
    (whole : ¬ (line.stop = .cr ∧ back.head? = some '\n')) (offset : Nat) :
    laterLineStarts offset (line.text ++ back) =
      (offset + line.text.length) :: laterLineStarts (offset + line.text.length) back := by
  have inner : ¬ CutsBreak line.content (line.stop.text ++ back) :=
    fun cuts => (unbroken _ (List.mem_of_getLast? cuts.1)).1 rfl
  have outer : ¬ CutsBreak line.stop.text back := fun cuts => whole ⟨LineBreak.getLast?_text cuts.1, cuts.2⟩
  rw [EndedLine.text, List.append_assoc, laterLineStarts_append inner, laterLineStarts_unbroken unbroken,
    laterLineStarts_append outer, laterLineStarts_break, List.length_append, Nat.add_assoc]
  rfl

/-- A text of lines starts with LF only if its first line is empty and LF ends it. -/
theorem exists_cons_of_head_joinLines (unbroken : ∀ content ∈ lineContents ended last, Unbroken content)
    (head : (joinLines ended last).head? = some '\n') :
    ∃ next rest, ended = next :: rest ∧ next.content = [] ∧ next.stop = .lf := by
  cases ended with
  | nil =>
    have clean := unbroken last (by simp [lineContents])
    exact absurd rfl (clean _ (List.mem_of_head? head)).2.1
  | cons next rest =>
    obtain ⟨content, stop⟩ := next
    cases content with
    | nil =>
      refine ⟨⟨[], stop⟩, rest, rfl, rfl, ?_⟩
      cases stop with
      | lf => rfl
      | _ => cases head
    | cons c content =>
      have clean := unbroken (c :: content) (by simp [lineContents])
      exact absurd (Option.some.inj head) (clean c List.mem_cons_self).2.1

theorem laterLineStarts_joinLines (unbroken : ∀ content ∈ lineContents ended last, Unbroken content)
    (separate : Separate ended) (offset : Nat) : laterLineStarts offset (joinLines ended last) =
      (List.range ended.length).map fun index => offset + lineOffset ended (index + 1) := by
  induction ended generalizing offset with
  | nil => exact laterLineStarts_unbroken (unbroken last (by simp [lineContents])) offset
  | cons line ended ih =>
    have clean : Unbroken line.content := unbroken _ (by simp [lineContents])
    have unbroken' : ∀ content ∈ lineContents ended last, Unbroken content :=
      fun content member => unbroken content (List.mem_cons_of_mem _ member)
    have whole : ¬ (line.stop = .cr ∧ (joinLines ended last).head? = some '\n') := by
      rintro ⟨cr, head⟩
      obtain ⟨next, rest, rfl, empty, lf⟩ := exists_cons_of_head_joinLines unbroken' head
      exact (List.isChain_cons_cons.mp separate).1 ⟨cr, empty, lf⟩
    have joined : joinLines (line :: ended) last = line.text ++ joinLines ended last := by
      simp [joinLines]
    rw [joined, laterLineStarts_line clean whole, ih unbroken' separate.of_cons, List.length_cons,
      List.range_succ_eq_map, List.map_cons, List.map_map]
    congr 1
    · simp [lineOffset]
    · refine List.map_congr_left fun index _ => ?_
      rw [Function.comp_apply, lineOffset_cons, Nat.add_assoc]

theorem lineStarts_joinLines (unbroken : ∀ content ∈ lineContents ended last, Unbroken content)
    (separate : Separate ended) :
    lineStarts (joinLines ended last) = (List.range (ended.length + 1)).map (lineOffset ended) := by
  unfold lineStarts
  rw [laterLineStarts_joinLines unbroken separate, List.range_succ_eq_map, List.map_cons, List.map_map]
  congr 1
  refine List.map_congr_left fun index _ => ?_
  rw [Nat.zero_add, Function.comp_apply]

theorem getElem?_lineStarts_joinLines (unbroken : ∀ content ∈ lineContents ended last, Unbroken content)
    (separate : Separate ended) {index start : Nat} :
    (lineStarts (joinLines ended last))[index]? = some start ↔
      index ≤ ended.length ∧ start = lineOffset ended index := by
  rw [lineStarts_joinLines unbroken separate, List.getElem?_map, Option.map_eq_some_iff]
  constructor
  · rintro ⟨number, found, rfl⟩
    obtain ⟨inside, rfl⟩ := List.getElem?_eq_some_iff.mp found
    rw [List.length_range] at inside
    rw [List.getElem_range]
    exact ⟨Nat.le_of_lt_succ inside, rfl⟩
  · rintro ⟨inside, rfl⟩
    exact ⟨index, List.getElem?_range (Nat.lt_succ_of_le inside), rfl⟩

/-- The characters of joined lines, and the ends of the lines, have the positions that they have in their lines. -/
theorem positionOf_joinLines (file : String) (ended : List EndedLine) (last : List Char)
    (unbroken : ∀ content ∈ lineContents ended last, Unbroken content) (separate : Separate ended) :
    (lineStarts (joinLines ended last)).length = (lineContents ended last).length ∧
    ∀ index content, (lineContents ended last)[index]? = some content → ∀ character ≤ content.length,
      positionOf file (joinLines ended last) ((lineOffset ended index + character : Nat) : Int) =
        .ok ⟨index, character⟩ := by
  constructor
  · simp [lineStarts_joinLines unbroken separate, lineContents]
  · intro index content placed character within
    obtain ⟨inside, ends, apart⟩ := lineOffset_add_length placed
    have starts := (getElem?_lineStarts_joinLines unbroken separate).mpr ⟨inside, rfl⟩
    refine positionOf_of_isPlaceOf file ⟨index, _, character, rfl, starts, by omega, ?_⟩ (by omega)
    intro later start behind placed'
    obtain ⟨inside', rfl⟩ := (getElem?_lineStarts_joinLines unbroken separate).mp placed'
    have := apart later behind inside'
    omega

theorem positionOf_joinLines_empty_lines :
    (∀ content ∈ lineContents [⟨['a'], .cr⟩, ⟨[], .crlf⟩, ⟨[], .lf⟩, ⟨['b'], .lineSeparator⟩] [], Unbroken content) ∧
    Separate [⟨['a'], .cr⟩, ⟨[], .crlf⟩, ⟨[], .lf⟩, ⟨['b'], .lineSeparator⟩] ∧
    (lineStarts "a\r\r\n\nb\u2028".toList).length = 5 ∧
    positionOf "t.ts" "a\r\r\n\nb\u2028".toList 6 = .ok ⟨3, 1⟩ := by
  have unbroken : ∀ content ∈ lineContents [⟨['a'], .cr⟩, ⟨[], .crlf⟩, ⟨[], .lf⟩, ⟨['b'], .lineSeparator⟩] [],
      Unbroken content := by
    simp [Unbroken, lineContents]
  have separate : Separate [⟨['a'], .cr⟩, ⟨[], .crlf⟩, ⟨[], .lf⟩, ⟨['b'], .lineSeparator⟩] := by
    unfold Separate
    decide
  obtain ⟨count, positions⟩ := positionOf_joinLines "t.ts" _ _ unbroken separate
  exact ⟨unbroken, separate, count, positions 3 ['b'] rfl 1 (by decide)⟩

end CompilerAdapter
