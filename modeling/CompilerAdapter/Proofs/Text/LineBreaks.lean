import CompilerAdapter.Proofs.Text.LineStarts
import Mathlib.Data.Nat.Count

/-!
# Lines are counted by their breaks

CR LF, CR, LF, the line separator and the paragraph separator break a line. The line of an offset is the number of
breaks that end at or before it, and the character counts from the end of the last one: `positionOf_breaks`.
-/

namespace CompilerAdapter

/-- What can end a line. -/
inductive LineBreak where
  | crlf
  | cr
  | lf
  | lineSeparator
  | paragraphSeparator
  deriving DecidableEq, Repr

def LineBreak.text : LineBreak → List Char
  | .crlf => ['\r', '\n']
  | .cr => ['\r']
  | .lf => ['\n']
  | .lineSeparator => ['\u2028']
  | .paragraphSeparator => ['\u2029']

/-- A break ends at an offset of a text. CR LF is one break, so neither of its characters is one. -/
def LineBreak.EndsAt (b : LineBreak) (text : List Char) (stop : Nat) : Prop :=
  ∃ before after, text = before ++ b.text ++ after ∧ stop = (before ++ b.text).length ∧
    (b = .cr → after.head? ≠ some '\n') ∧ (b = .lf → before.getLast? ≠ some '\r')

def BreakEndsAt (text : List Char) (stop : Nat) : Prop := ∃ b : LineBreak, b.EndsAt text stop

/-- The character at an index is the last one of a break. -/
def ClosesLine (text : List Char) (index : Nat) : Prop :=
  ∃ c ∈ text[index]?, isLineEnd c = true ∧ ¬ (c = '\r' ∧ text[index + 1]? = some '\n')

instance (text : List Char) : DecidablePred (ClosesLine text) :=
  fun index => Option.decidableExistsMem text[index]?

/-! ### The last character of a break -/

theorem isLineEnd_iff {c : Char} : isLineEnd c = true ↔ c = '\n' ∨ c = '\r' ∨ c = '\u2028' ∨ c = '\u2029' := by
  simp [isLineEnd, or_assoc]

theorem closesLine_append {before after : List Char} {c : Char} :
    ClosesLine (before ++ c :: after) before.length ↔ isLineEnd c = true ∧ ¬ (c = '\r' ∧ after.head? = some '\n') := by
  have next : (before ++ c :: after)[before.length + 1]? = after.head? := by
    rw [List.getElem?_append_right (by omega), Nat.add_sub_cancel_left, List.head?_eq_getElem?]
    rfl
  simp [ClosesLine, next]

theorem ClosesLine.exists_append {text : List Char} {index : Nat} (closes : ClosesLine text index) :
    ∃ before c after, text = before ++ c :: after ∧ index = before.length := by
  obtain ⟨c, found, _⟩ := closes
  obtain ⟨inside, _⟩ := List.getElem?_eq_some_iff.mp found
  refine ⟨text.take index, text[index], text.drop (index + 1), ?_, ?_⟩
  · rw [← List.drop_eq_getElem_cons, List.take_append_drop]
  · rw [List.length_take]
    omega

theorem LineBreak.text_eq (b : LineBreak) :
    ∃ front c, b.text = front ++ [c] ∧ isLineEnd c = true ∧ (c = '\r' → b = .cr) := by
  cases b with
  | crlf => exact ⟨['\r'], '\n', rfl, rfl, by decide⟩
  | cr => exact ⟨[], '\r', rfl, rfl, fun _ => rfl⟩
  | lf => exact ⟨[], '\n', rfl, rfl, by decide⟩
  | lineSeparator => exact ⟨[], '\u2028', rfl, rfl, by decide⟩
  | paragraphSeparator => exact ⟨[], '\u2029', rfl, rfl, by decide⟩

theorem LineBreak.endsAt_of_single {b : LineBreak} {before after : List Char} {c : Char} (single : b.text = [c])
    (cr : b = .cr → after.head? ≠ some '\n') (lf : b = .lf → before.getLast? ≠ some '\r') :
    b.EndsAt (before ++ c :: after) (before.length + 1) :=
  ⟨before, after, by simp [single], by simp [single], cr, lf⟩

theorem breakEndsAt_append {before after : List Char} {c : Char} (ends : isLineEnd c = true)
    (whole : ¬ (c = '\r' ∧ after.head? = some '\n')) : BreakEndsAt (before ++ c :: after) (before.length + 1) := by
  rcases isLineEnd_iff.mp ends with rfl | rfl | rfl | rfl
  · -- A line feed is a break of its own, or the second half of one.
    by_cases second : before.getLast? = some '\r'
    · obtain ⟨front, rfl⟩ := List.getLast?_eq_some_iff.mp second
      exact ⟨.crlf, front, after, by simp [LineBreak.text], by simp [LineBreak.text], nofun, nofun⟩
    · exact ⟨.lf, LineBreak.endsAt_of_single rfl nofun fun _ => second⟩
  · exact ⟨.cr, LineBreak.endsAt_of_single rfl (fun _ next => whole ⟨rfl, next⟩) nofun⟩
  · exact ⟨.lineSeparator, LineBreak.endsAt_of_single rfl nofun nofun⟩
  · exact ⟨.paragraphSeparator, LineBreak.endsAt_of_single rfl nofun nofun⟩

theorem breakEndsAt_succ_iff {text : List Char} {index : Nat} :
    BreakEndsAt text (index + 1) ↔ ClosesLine text index := by
  constructor
  · rintro ⟨b, before, after, rfl, stops, cr, _⟩
    obtain ⟨front, c, last, ends, isCr⟩ := b.text_eq
    have place : index = (before ++ front).length := by
      rw [last, ← List.append_assoc, List.length_append] at stops
      exact Nat.succ.inj stops
    rw [last, place, ← List.append_assoc, List.append_assoc, List.singleton_append, closesLine_append]
    exact ⟨ends, fun ⟨same, next⟩ => cr (isCr same) next⟩
  · intro closes
    obtain ⟨before, c, after, rfl, rfl⟩ := closes.exists_append
    obtain ⟨ends, whole⟩ := closesLine_append.mp closes
    exact breakEndsAt_append ends whole

theorem not_breakEndsAt_zero (text : List Char) : ¬ BreakEndsAt text 0 := by
  rintro ⟨b, before, after, _, stops, _⟩
  obtain ⟨front, c, last, _⟩ := b.text_eq
  rw [last] at stops
  simp at stops

instance (text : List Char) : DecidablePred (BreakEndsAt text)
  | 0 => isFalse (not_breakEndsAt_zero text)
  | _ + 1 => decidable_of_iff _ breakEndsAt_succ_iff.symm

/-! ### Lines start where breaks end -/

theorem closesLine_zero {c : Char} {rest : List Char} :
    ClosesLine (c :: rest) 0 ↔ isLineEnd c = true ∧ ¬ (c = '\r' ∧ rest.head? = some '\n') :=
  @closesLine_append [] rest c

theorem laterLineStarts_cons (offset : Nat) (c : Char) (rest : List Char) :
    laterLineStarts offset (c :: rest) =
      if ClosesLine (c :: rest) 0 then (offset + 1) :: laterLineStarts (offset + 1) rest
      else laterLineStarts (offset + 1) rest := by
  have same : (isLineEnd c && !(c == '\r' && rest.head? == some '\n')) = true ↔ ClosesLine (c :: rest) 0 := by
    rw [closesLine_zero, Bool.and_eq_true, Bool.not_eq_true', ← Bool.not_eq_true, Bool.and_eq_true, beq_iff_eq,
      beq_iff_eq]
  rw [laterLineStarts]
  exact if_congr same rfl rfl

theorem mem_laterLineStarts {offset start : Nat} {text : List Char} :
    start ∈ laterLineStarts offset text ↔ ∃ index, ClosesLine text index ∧ start = offset + index + 1 := by
  induction text generalizing offset with
  | nil => simp [laterLineStarts, ClosesLine]
  | cons c rest ih =>
    -- The first character, or one behind it, which closes a line of the rest.
    have cut : (∃ index, ClosesLine (c :: rest) index ∧ start = offset + index + 1) ↔
        (ClosesLine (c :: rest) 0 ∧ start = offset + 1) ∨
          ∃ index, ClosesLine rest index ∧ start = offset + 1 + index + 1 := by
      constructor
      · rintro ⟨index, closes, place⟩
        cases index with
        | zero => exact .inl ⟨closes, place⟩
        | succ index => exact .inr ⟨index, closes, by omega⟩
      · rintro (⟨closes, place⟩ | ⟨index, closes, place⟩)
        · exact ⟨0, closes, place⟩
        · exact ⟨index + 1, closes, by omega⟩
    rw [cut, ← ih, laterLineStarts_cons]
    split
    · rename_i closes
      rw [List.mem_cons]
      exact or_congr_left (iff_and_self.mpr fun _ => closes)
    · rename_i closes
      exact (or_iff_right fun first => closes first.1).symm

theorem breakEndsAt_iff_mem {text : List Char} {stop : Nat} :
    BreakEndsAt text stop ↔ stop ∈ laterLineStarts 0 text := by
  rw [mem_laterLineStarts]
  cases stop with
  | zero => simp [not_breakEndsAt_zero]
  | succ index => simp [breakEndsAt_succ_iff]

/-! ### Breaks up to an offset -/

theorem mem_takeWhile_le {starts : List Nat} (ascending : starts.Pairwise (· < ·)) {offset start : Nat} :
    start ∈ starts.takeWhile (· ≤ offset) ↔ start ∈ starts ∧ start ≤ offset := by
  constructor
  · intro member
    have early := List.all_eq_true.mp (List.all_takeWhile (l := starts) (p := (· ≤ offset))) start member
    exact ⟨(List.takeWhile_sublist _).subset member, of_decide_eq_true early⟩
  · rintro ⟨member, early⟩
    obtain ⟨index, placed⟩ := List.getElem?_of_mem member
    have inside := (le_iff_lt_length_takeWhile ascending placed).mp early
    obtain ⟨behind, whole⟩ := List.takeWhile_prefix (l := starts) (· ≤ offset)
    rw [← whole, List.getElem?_append_left inside] at placed
    exact List.mem_of_getElem? placed

section Ascending

variable {starts : List Nat} {p : Nat → Prop} [DecidablePred p] {offset : Nat}

theorem length_eq_count (ascending : starts.Pairwise (· < ·))
    (listed : ∀ start, start ∈ starts ↔ p start ∧ start ≤ offset) :
    starts.length = Nat.count p (offset + 1) := by
  rw [Nat.count_eq_card_filter_range, ← List.toFinset_card_of_nodup (ascending.imp Nat.ne_of_lt)]
  congr 1
  ext start
  rw [List.mem_toFinset, listed, Finset.mem_filter, Finset.mem_range, Nat.lt_succ_iff, and_comm]

theorem getLastD_eq_findGreatest (ascending : starts.Pairwise (· < ·))
    (listed : ∀ start, start ∈ starts ↔ p start ∧ start ≤ offset) :
    starts.getLastD 0 = Nat.findGreatest p offset := by
  refine (Nat.findGreatest_eq_iff.mpr ?_).symm
  rcases List.eq_nil_or_concat' starts with rfl | ⟨front, last, rfl⟩
  · refine ⟨Nat.zero_le offset, fun positive => absurd rfl positive, fun start _ early holds => ?_⟩
    exact List.not_mem_nil ((listed start).mpr ⟨holds, early⟩)
  · rw [List.getLastD_concat]
    obtain ⟨holds, early⟩ := (listed last).mp (by simp)
    refine ⟨early, fun _ => holds, fun start beyond within holds' => ?_⟩
    have member := (listed start).mpr ⟨holds', within⟩
    rw [List.pairwise_append] at ascending
    rcases List.mem_append.mp member with before | same
    · have := ascending.2.2 start before last (by simp)
      omega
    · have := List.mem_singleton.mp same
      omega

end Ascending

theorem positionIn_eq (text : List Char) (offset : Nat) : positionIn (lineStarts text) offset =
    ⟨Nat.count (BreakEndsAt text) (offset + 1), offset - Nat.findGreatest (BreakEndsAt text) offset⟩ := by
  have ascending := pairwise_laterLineStarts 0 text
  have ascending' : ((laterLineStarts 0 text).takeWhile (· ≤ offset)).Pairwise (· < ·) :=
    ascending.sublist (List.takeWhile_sublist _)
  have listed : ∀ start, start ∈ (laterLineStarts 0 text).takeWhile (· ≤ offset) ↔
      BreakEndsAt text start ∧ start ≤ offset := by
    intro start
    rw [mem_takeWhile_le ascending, breakEndsAt_iff_mem]
  unfold positionIn
  dsimp only
  rw [takeWhile_lineStarts, List.getLastD_cons, ← length_eq_count ascending' listed,
    ← getLastD_eq_findGreatest ascending' listed, List.length_cons, Int.natCast_succ, Int.add_sub_cancel]

/-- The line of an offset in a text is the number of breaks that end at or before it, and its character counts from the
end of the last of them. Offsets outside of the text have no position, and those inside have theirs in their order. -/
theorem positionOf_breaks (file : String) (text : List Char) :
    (∀ offset : Int, (∃ e, positionOf file text offset = .error e) ↔ offset < 0 ∨ (text.length : Int) < offset) ∧
    (∀ offset : Nat, offset ≤ text.length → positionOf file text offset =
      .ok ⟨Nat.count (BreakEndsAt text) (offset + 1), offset - Nat.findGreatest (BreakEndsAt text) offset⟩) ∧
    ∀ offset later : Nat, offset < later → later ≤ text.length →
      ∃ p q, positionOf file text offset = .ok p ∧ positionOf file text later = .ok q ∧
        (p.line < q.line ∨ p.line = q.line ∧ p.character < q.character) := by
  refine ⟨fun offset => ?_, fun offset inside => ?_, fun offset later before inside => ?_⟩
  · rcases positionOf_cases file text offset with ⟨least, most, p, found, _⟩ | ⟨beyond, failed⟩ | ⟨negative, failed⟩
    · rw [found]
      exact iff_of_false nofun (by omega)
    · exact iff_of_true ⟨_, failed⟩ (.inr beyond)
    · exact iff_of_true ⟨_, failed⟩ (.inl negative)
  · unfold positionOf
    rw [if_neg (by omega), if_neg (by omega), Int.toNat_natCast, positionIn_eq]
  · obtain ⟨p, found, place⟩ := exists_positionOf file (Nat.le_of_lt (Nat.lt_of_lt_of_le before inside))
    obtain ⟨q, found', place'⟩ := exists_positionOf file inside
    exact ⟨p, q, found, found', place.lt place' (Int.ofNat_lt.mpr before)⟩

theorem positionOf_breaks_split_crlf :
    2 ≤ "a\r\n\r".toList.length ∧ positionOf "t.ts" "a\r\n\r".toList (2 : Nat) = .ok ⟨0, 2⟩ ∧
    2 < 4 ∧ 4 ≤ "a\r\n\r".toList.length ∧
    ∃ p q, positionOf "t.ts" "a\r\n\r".toList (2 : Nat) = .ok p ∧
      positionOf "t.ts" "a\r\n\r".toList (4 : Nat) = .ok q ∧
      (p.line < q.line ∨ p.line = q.line ∧ p.character < q.character) := by
  obtain ⟨_, counted, ordered⟩ := positionOf_breaks "t.ts" "a\r\n\r".toList
  have count : Nat.count (BreakEndsAt "a\r\n\r".toList) 3 = 0 := by decide
  have last : Nat.findGreatest (BreakEndsAt "a\r\n\r".toList) 2 = 0 := by decide
  have position := counted 2 (by decide)
  rw [count, last] at position
  exact ⟨by decide, position, by decide, by decide, ordered 2 4 (by decide) (by decide)⟩

end CompilerAdapter
