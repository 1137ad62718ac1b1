import CompilerAdapter.Proofs.Json.Content

/-!
# Numerals that are too long

Reading goes on in what is left of the text. A numeral that is refused for its length stands in the text, digit by
digit: `longRun_of_read`.
-/

namespace CompilerAdapter.Json

/-- So many digits in a row that they are no numeral. -/
def LongRun (s : List Char) (count : Nat) : Prop :=
  Numeral.maxDigits < count ∧ ∃ digits, digits <:+: s ∧ digits.length = count ∧ ∀ c ∈ digits, c.isDigit = true

/-- Reading leaves an end of the text, and refuses no numeral but one of the text. -/
structure Within {α : Type} (s : List Char) (result : Read α) : Prop where
  rest : ∀ a rest, result = .ok (a, rest) → rest <:+ s
  long : ∀ count, result = .error (.numeralTooLong count) → LongRun s count

variable {α : Type} {s t rest : List Char} {fuel : Nat}

theorem LongRun.mono {count : Nat} (run : LongRun t count) (suffix : t <:+ s) : LongRun s count := by
  obtain ⟨many, digits, inside, size, all⟩ := run
  exact ⟨many, digits, inside.trans suffix.isInfix, size, all⟩

theorem Within.mono {result : Read α} (within : Within t result) (suffix : t <:+ s) : Within s result where
  rest a rest found := (within.rest a rest found).trans suffix
  long count failed := (within.long count failed).mono suffix

theorem within_ok {a : α} (suffix : rest <:+ s) : Within s (.ok (a, rest)) := by
  refine ⟨fun b other same => ?_, nofun⟩
  obtain ⟨_, rfl⟩ := Prod.mk.inj (Except.ok.inj same)
  exact suffix

theorem within_malformed {fault : Fault} : Within s (.error (.malformed fault rest) : Read α) := ⟨nofun, nofun⟩

theorem skipBlank_suffix (s : List Char) : skipBlank s <:+ s := List.dropWhile_suffix _

/-! ### Strings and numbers -/

theorem within_readUnits (opening : List Char) (units : List Nat) (s : List Char) :
    Within s (readUnits opening units s) := by
  fun_induction readUnits opening units s with
  | case2 => exact within_ok (List.suffix_cons _ _)
  | case4 _ h₁ h₂ h₃ h₄ _ _ _ _ _ ih => exact ih.mono ⟨['\\', 'u', h₁, h₂, h₃, h₄], rfl⟩
  | case7 _ e _ _ _ _ _ ih => exact ih.mono ⟨['\\', e], rfl⟩
  | case10 _ _ _ _ _ _ ih => exact ih.mono (List.suffix_cons _ _)
  | _ => exact within_malformed

theorem within_readString (s : List Char) : Within s (readString s) := by
  have units := (within_readUnits s [] s.tail).mono (List.tail_suffix s)
  unfold readString
  split
  · rename_i found
    exact within_ok (units.rest _ _ found)
  · rename_i stop failed
    refine ⟨nofun, fun count same => units.long count ?_⟩
    rw [failed, Except.error.inj same]

theorem wholeDigits_append {digits : List Char} (cut : wholeDigits s = (digits, rest)) : digits ++ rest = s := by
  unfold wholeDigits at cut
  split at cut
  · obtain ⟨rfl, rfl⟩ := Prod.mk.inj cut
    rfl
  · rw [List.span_eq_takeWhile_dropWhile] at cut
    obtain ⟨rfl, rfl⟩ := Prod.mk.inj cut
    exact List.takeWhile_append_dropWhile

theorem fractionDigits_suffix {digits : List Char} (cut : fractionDigits s = (digits, rest)) : rest <:+ s := by
  unfold fractionDigits at cut
  split at cut
  · split at cut
    · obtain ⟨_, rfl⟩ := Prod.mk.inj cut
      exact List.suffix_refl _
    · rw [List.span_eq_takeWhile_dropWhile] at cut
      obtain ⟨_, rfl⟩ := Prod.mk.inj cut
      exact (List.dropWhile_suffix _).trans (List.suffix_cons _ _)
  · obtain ⟨_, rfl⟩ := Prod.mk.inj cut
    exact List.suffix_refl _

theorem exponent?_suffix {exponent : Int} (found : exponent? s = some (exponent, rest)) : rest <:+ s := by
  unfold exponent? at found
  split at found
  · rename_i e tail
    split at found
    · split at found
      rename_i negative behind sign
      split at found
      rename_i digits after cut
      split at found
      · cases found
      · obtain ⟨_, rfl⟩ := Prod.mk.inj (Option.some.inj found)
        have signed : behind <:+ tail := by
          split at sign
          · obtain ⟨_, rfl⟩ := Prod.mk.inj sign
            exact List.suffix_cons _ _
          · obtain ⟨_, rfl⟩ := Prod.mk.inj sign
            exact List.suffix_cons _ _
          · obtain ⟨_, rfl⟩ := Prod.mk.inj sign
            exact List.suffix_refl _
        rw [List.span_eq_takeWhile_dropWhile] at cut
        obtain ⟨_, rfl⟩ := Prod.mk.inj cut
        exact (List.dropWhile_suffix _).trans (signed.trans (List.suffix_cons _ _))
    · cases found
  · cases found

theorem longRun_of_numeral {digits : List Char} {count : Nat} (inside : digits <:+: s)
    (all : ∀ c ∈ digits, c.isDigit = true) (failed : Numeral.read digits = .error count) : LongRun s count := by
  unfold Numeral.read at failed
  split at failed
  · rename_i many
    obtain rfl := Except.error.inj failed
    exact ⟨many, digits, inside, rfl, all⟩
  · cases failed

theorem within_readNumber (s : List Char) : Within s (readNumber s) := by
  unfold readNumber
  split
  rename_i negative unsigned sign
  split
  rename_i whole behind cut
  have suffix : unsigned <:+ s := by
    split at sign
    · obtain ⟨_, rfl⟩ := Prod.mk.inj sign
      exact List.suffix_cons _ _
    · obtain ⟨_, rfl⟩ := Prod.mk.inj sign
      exact List.suffix_refl _
  split
  · exact within_malformed
  split
  rename_i fraction behind' cut'
  have after : behind' <:+ s :=
    (fractionDigits_suffix cut').trans (.trans ⟨whole, wholeDigits_append cut⟩ suffix)
  split
  · split
    · exact within_ok after
    · rename_i count failed
      refine ⟨nofun, fun other same => ?_⟩
      obtain rfl := Stop.numeralTooLong.inj (Except.error.inj same)
      have inside : whole <:+: s := .trans ⟨[], behind, wholeDigits_append cut⟩ suffix.isInfix
      exact longRun_of_numeral inside (isDigit_of_wholeDigits cut) failed
  · rename_i scale _
    split
    rename_i exponent rest scaled
    refine within_ok ?_
    cases found : exponent? behind' with
    | none =>
      rw [found] at scaled
      obtain ⟨_, rfl⟩ := Prod.mk.inj scaled
      exact after
    | some part =>
      rw [found] at scaled
      obtain rfl : part = (exponent, rest) := scaled
      exact (exponent?_suffix found).trans after

theorem within_readSimple (s : List Char) : Within s (readSimple s) := by
  unfold readSimple
  split
  · exact within_ok (List.drop_suffix _ _)
  · exact within_readNumber s

/-! ### Values -/

theorem within_skipBlank {result : Read α} (within : Within (skipBlank s) result) : Within s result :=
  within.mono (skipBlank_suffix s)

/-- What goes on behind a character goes on in the text. -/
theorem within_behind {c : Char} {result : Read α} (shape : skipBlank s = c :: rest) (within : Within rest result) :
    Within s result := by
  apply within_skipBlank
  rw [shape]
  exact within.mono (List.suffix_cons c rest)

theorem Within.of_error {β : Type} {stop : Stop} {first : Read α} (within : Within s first)
    (failed : first = .error stop) : Within s (.error stop : Read β) := by
  refine ⟨nofun, fun count same => within.long count ?_⟩
  rw [failed, Except.error.inj same]

theorem within_readItems (value : ∀ s, Within s (readValue fuel s))
    (items : ∀ before s, Within s (readItems fuel before s)) (before : List Value) (s : List Char) :
    Within s (readItems (fuel + 1) before s) := by
  unfold readItems
  split
  · rename_i stop failed
    exact (value s).of_error failed
  · rename_i item behind found
    have suffix := (value s).rest item behind found
    split
    · rename_i rest shape
      exact (within_behind shape (within_ok (List.suffix_refl rest))).mono suffix
    · rename_i rest shape
      exact (within_behind shape (within_skipBlank (items _ _))).mono suffix
    · exact within_malformed

theorem within_readFields (value : ∀ s, Within s (readValue fuel s))
    (fields : ∀ before s, Within s (readFields fuel before s)) (before : Fields) (s : List Char) :
    Within s (readFields (fuel + 1) before s) := by
  unfold readFields
  split
  · split
    · rename_i stop failed
      exact (within_readString _).of_error failed
    · rename_i name behind found
      have suffix := (within_readString _).rest name behind found
      refine .mono ?_ suffix
      split
      · rename_i rest colon
        refine within_behind colon (within_skipBlank ?_)
        split
        · rename_i stop failed
          exact (value _).of_error failed
        · rename_i added behind' found'
          refine .mono ?_ ((value _).rest added behind' found')
          dsimp only
          split
          · rename_i rest shape
            exact within_behind shape (within_ok (List.suffix_refl rest))
          · rename_i rest shape
            exact within_behind shape (within_skipBlank (fields _ _))
          · exact within_malformed
      · exact within_malformed
  · exact within_malformed

theorem within_readValue (items : ∀ before s, Within s (readItems fuel before s))
    (fields : ∀ before s, Within s (readFields fuel before s)) (s : List Char) :
    Within s (readValue (fuel + 1) s) := by
  unfold readValue
  split
  · split
    · rename_i text rest found
      exact within_ok ((within_readString _).rest text rest found)
    · rename_i stop failed
      exact (within_readString _).of_error failed
  · refine .mono ?_ (List.suffix_cons _ _)
    split
    · rename_i rest shape
      exact within_behind shape (within_ok (List.suffix_refl rest))
    · exact within_skipBlank (items _ _)
  · refine .mono ?_ (List.suffix_cons _ _)
    split
    · rename_i rest shape
      exact within_behind shape (within_ok (List.suffix_refl rest))
    · exact within_skipBlank (fields _ _)
  · exact within_readSimple _

theorem within_all (fuel : Nat) : (∀ s, Within s (readValue fuel s)) ∧
    (∀ before s, Within s (readItems fuel before s)) ∧ ∀ before s, Within s (readFields fuel before s) := by
  induction fuel with
  | zero => exact ⟨fun _ => within_malformed, fun _ _ => within_malformed, fun _ _ => within_malformed⟩
  | succ fuel ih =>
    obtain ⟨value, items, fields⟩ := ih
    exact ⟨within_readValue items fields, within_readItems value items, within_readFields value fields⟩

/-- A numeral that is too long has all of its digits in the text. -/
theorem longRun_of_read {text : List Char} {count : Nat} (failed : read text = .error (.numeralTooLong count)) :
    LongRun text count := by
  have within := within_skipBlank ((within_all (2 * text.length + 2)).1 (skipBlank text))
  unfold read at failed
  dsimp only at failed
  split at failed
  · cases failed
  split at failed
  · rename_i stop stopped
    cases stop with
    | malformed => cases failed
    | numeralTooLong =>
      obtain rfl := ReadError.numeralTooLong.inj (Except.error.inj failed)
      exact within.long _ stopped
  · split at failed <;> cases failed

end CompilerAdapter.Json
