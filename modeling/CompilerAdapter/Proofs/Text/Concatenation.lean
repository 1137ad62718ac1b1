import CompilerAdapter.Proofs.Text.LineBreaks

/-!
# Lines of texts put together

Two texts put together have the lines of both: the last line of the first goes on with the first line of the second.
Only a CR at the end of the first is no break of its own if the second starts with LF: `lineStarts_append`.
-/

namespace CompilerAdapter

/-- A CR LF lies across the border of two texts. -/
def CutsBreak (front back : List Char) : Prop := front.getLast? = some '\r' ∧ back.head? = some '\n'

instance (front back : List Char) : Decidable (CutsBreak front back) := inferInstanceAs (Decidable (_ ∧ _))

theorem CutsBreak.exists_append {front back : List Char} (cuts : CutsBreak front back) :
    ∃ before after, front = before ++ ['\r'] ∧ back = '\n' :: after := by
  obtain ⟨before, whole⟩ := List.getLast?_eq_some_iff.mp cuts.1
  obtain ⟨after, whole'⟩ := List.head?_eq_some_iff.mp cuts.2
  exact ⟨before, after, whole, whole'⟩

theorem closesLine_zero_append {c : Char} {rest back : List Char} (whole : ¬ CutsBreak (c :: rest) back) :
    ClosesLine (c :: (rest ++ back)) 0 ↔ ClosesLine (c :: rest) 0 := by
  rw [closesLine_zero, closesLine_zero]
  cases rest with
  | nil =>
    refine and_congr_right fun _ => iff_of_true (fun cut => whole ?_) (by simp)
    obtain ⟨rfl, next⟩ := cut
    exact ⟨rfl, next⟩
  | cons next rest => rfl

theorem not_cutsBreak_of_cons {c : Char} {rest back : List Char} (whole : ¬ CutsBreak (c :: rest) back) :
    ¬ CutsBreak rest back := by
  rintro ⟨last, next⟩
  refine whole ⟨?_, next⟩
  rw [List.getLast?_cons, last]
  rfl

theorem laterLineStarts_append {front back : List Char} (whole : ¬ CutsBreak front back) (offset : Nat) :
    laterLineStarts offset (front ++ back) =
      laterLineStarts offset front ++ laterLineStarts (offset + front.length) back := by
  induction front generalizing offset with
  | nil => rfl
  | cons c rest ih =>
    have later := ih (not_cutsBreak_of_cons whole) (offset + 1)
    have place : offset + (c :: rest).length = offset + 1 + rest.length := by
      rw [List.length_cons]
      omega
    rw [List.cons_append, laterLineStarts_cons, laterLineStarts_cons, later, place]
    simp only [closesLine_zero_append whole]
    split <;> rfl

theorem laterLineStarts_add (offset shift : Nat) (text : List Char) :
    laterLineStarts (offset + shift) text = (laterLineStarts offset text).map (· + shift) := by
  induction text generalizing offset with
  | nil => rfl
  | cons c rest ih =>
    have later := ih (offset + 1)
    rw [Nat.add_right_comm] at later
    rw [laterLineStarts_cons, laterLineStarts_cons, later]
    split
    · rw [List.map_cons, Nat.add_right_comm]
    · rfl

theorem tail_lineStarts_add (shift : Nat) (text : List Char) :
    laterLineStarts shift text = (lineStarts text).tail.map (· + shift) := by
  have moved := laterLineStarts_add 0 shift text
  rw [Nat.zero_add] at moved
  exact moved

theorem dropLast_lineStarts_cr (before : List Char) :
    (lineStarts (before ++ ['\r'])).dropLast = lineStarts before := by
  have whole : ¬ CutsBreak before ['\r'] := nofun
  have last (offset : Nat) : laterLineStarts offset ['\r'] = [offset + 1] := rfl
  unfold lineStarts
  rw [laterLineStarts_append whole, last, ← List.cons_append, List.dropLast_concat]

/-- The CR of a CR LF starts no line. -/
theorem lineStarts_append_crlf (before after : List Char) :
    lineStarts (before ++ '\r' :: '\n' :: after) =
      lineStarts before ++ laterLineStarts (before.length + 1) ('\n' :: after) := by
  have whole : ¬ CutsBreak before ('\r' :: '\n' :: after) := nofun
  have goesOn : ¬ ClosesLine ('\r' :: '\n' :: after) 0 := fun closes => (closesLine_zero.mp closes).2 ⟨rfl, rfl⟩
  unfold lineStarts
  rw [laterLineStarts_append whole, Nat.zero_add, laterLineStarts_cons before.length, if_neg goesOn]
  rfl

/-- The lines of two texts put together start where those of the first do, and where those of the second do behind its
first, moved by the length of the first text. A CR LF across the border ends one line only. -/
theorem lineStarts_append (front back : List Char) :
    lineStarts (front ++ back) =
      (if CutsBreak front back then (lineStarts front).dropLast else lineStarts front) ++
        (lineStarts back).tail.map (· + front.length) := by
  rw [← tail_lineStarts_add]
  split
  · rename_i cuts
    obtain ⟨before, after, rfl, rfl⟩ := cuts.exists_append
    rw [dropLast_lineStarts_cr, List.append_assoc, List.singleton_append, lineStarts_append_crlf, List.length_append,
      List.length_singleton]
  · rename_i whole
    unfold lineStarts
    rw [laterLineStarts_append whole, Nat.zero_add, List.cons_append]

example : lineStarts ("a\r".toList ++ "\nb".toList) = [0, 3] := by decide

end CompilerAdapter
