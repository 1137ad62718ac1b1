import CompilerAdapter.Proofs.Diagnostic.Flattening
import CompilerAdapter.Proofs.Number.Numeral
import CompilerAdapter.Proofs.Text.LineStarts
import Mathlib.Algebra.Group.Int.Defs
import Mathlib.Data.List.Forall2

/-!
# Diagnostics at the places of records

Flattening goes up to the first record that lies outside of its file, or that has no file and a code too long to be
logged. If there is none, every record with a file becomes a diagnostic at its place, in order: `flatten_places`.
-/

namespace CompilerAdapter.Record

/-- The record has a file, but its offset lies outside of the text. -/
def IsMisplaced (r : Record) : Prop :=
  ∃ file, r.file = some file ∧ ¬ (0 ≤ r.start ∧ r.start ≤ file.text.length)

/-- The record has no file, but it cannot be dropped: its code has too many digits to be logged. -/
def IsUndroppable (r : Record) : Prop := r.file = none ∧ 10 ^ Numeral.maxDigits ≤ r.code.natAbs

/-- The error at which flattening stops on account of a record. -/
inductive FailsWith (r : Record) : FlatteningError → Prop where
  | unwritable (undroppable : r.IsUndroppable) : FailsWith r .unwritable
  | pastEnd {file : SourceFile} (given : r.file = some file) (beyond : (file.text.length : Int) < r.start) :
      FailsWith r (.misplaced (.pastEnd r.start file.name file.text.length))
  | negative {file : SourceFile} (given : r.file = some file) (below : r.start < 0) :
      FailsWith r (.misplaced (.negative r.start))

/-- The diagnostic has the code, the file and the message of the record, and its place counted from one. -/
def Describes (newLine : String) (r : Record) (d : Diagnostic) : Prop :=
  ∃ file, r.file = some file ∧ d.code = .int r.code ∧ d.fileName = file.name ∧
    d.message = r.message.flatten newLine 0 ∧ ∃ line column : Int, d.line = .int line ∧ d.column = .int column ∧
      1 ≤ line ∧ 1 ≤ column ∧ Position.IsPlaceOf ⟨line - 1, column - 1⟩ file.text.toList r.start

/-- What is noted of the records without a file. -/
def dropLog (records : List Record) : List LogEntry := (detached records).map fun r => .droppedDiagnostic r.code

/-! ### One record -/

section Step

variable {newLine : String} {r : Record} {file : SourceFile} {e : FlatteningError}

theorem FailsWith.refused (fails : r.FailsWith e) : r.IsMisplaced ∨ r.IsUndroppable := by
  cases fails with
  | unwritable undroppable => exact .inr undroppable
  | pastEnd given beyond => exact .inl ⟨_, given, by omega⟩
  | negative given below => exact .inl ⟨_, given, by omega⟩

theorem describes_toDiagnostic {position : Position} (newLine : String) (given : r.file = some file)
    (place : position.IsPlaceOf file.text.toList r.start) :
    Describes newLine r (r.toDiagnostic newLine file position) := by
  obtain ⟨line, start, character, whole, _⟩ := id place
  refine ⟨file, given, rfl, rfl, rfl, _, _, rfl, rfl, ?_, ?_, ?_⟩
  · rw [whole]
    show (1 : Int) ≤ line + 1
    omega
  · rw [whole]
    show (1 : Int) ≤ character + 1
    omega
  · simpa using place

theorem diagnose_of_undroppable {resolve : Resolver} (undroppable : r.IsUndroppable) :
    r.diagnose resolve newLine = .error .unwritable := by
  obtain ⟨given, long⟩ := undroppable
  have unwritable : ¬ (Number.int r.code).isWritable = true := by
    rw [Number.int_isWritable]
    exact Nat.not_lt.mpr long
  simp [diagnose, given, unwritable]

theorem diagnose_of_droppable {resolve : Resolver} (given : r.file = none) (droppable : ¬ r.IsUndroppable) :
    r.diagnose resolve newLine = .ok none := by
  refine diagnose_eq_none_iff.mpr ⟨given, Number.int_isWritable.mpr ?_⟩
  exact Nat.lt_of_not_le fun long => droppable ⟨given, long⟩

theorem diagnose_cases_of_some (newLine : String) (given : r.file = some file) :
    (∃ d, r.diagnose SourceFile.resolve newLine = .ok (some d) ∧ Describes newLine r d ∧ ¬ r.IsMisplaced) ∨
    ∃ e, r.diagnose SourceFile.resolve newLine = .error e ∧ r.FailsWith e := by
  have cases := positionOf_cases file.name file.text.toList r.start
  rw [String.length_toList] at cases
  rcases cases with ⟨least, most, position, found, place⟩ | ⟨beyond, failed⟩ | ⟨below, failed⟩
  · refine .inl ⟨_, diagnose_eq_some_iff.mpr ⟨file, position, given, found, rfl⟩,
      describes_toDiagnostic newLine given place, fun ⟨other, given', outside⟩ => ?_⟩
    obtain rfl := Option.some.inj (given.symm.trans given')
    exact outside ⟨least, most⟩
  · exact .inr ⟨_, by simp [diagnose, given, SourceFile.resolve, failed], .pastEnd given beyond⟩
  · exact .inr ⟨_, by simp [diagnose, given, SourceFile.resolve, failed], .negative given below⟩

/-- A record fails, or it is at its place or dropped. -/
theorem diagnose_cases (newLine : String) (r : Record) :
    (∃ made, r.diagnose SourceFile.resolve newLine = .ok made ∧ ¬ (r.IsMisplaced ∨ r.IsUndroppable) ∧
      ∀ d, made = some d → Describes newLine r d) ∨
    ∃ e, r.diagnose SourceFile.resolve newLine = .error e ∧ r.FailsWith e := by
  cases given : r.file with
  | none =>
    have inside : ¬ r.IsMisplaced := by simp [IsMisplaced, given]
    by_cases undroppable : r.IsUndroppable
    · exact .inr ⟨_, diagnose_of_undroppable undroppable, .unwritable undroppable⟩
    · exact .inl ⟨none, diagnose_of_droppable given undroppable, not_or.mpr ⟨inside, undroppable⟩, nofun⟩
  | some file =>
    have droppable : ¬ r.IsUndroppable := by simp [IsUndroppable, given]
    rcases diagnose_cases_of_some newLine given with ⟨d, made, describes, inside⟩ | failed
    · refine .inl ⟨some d, made, not_or.mpr ⟨inside, droppable⟩, fun other same => ?_⟩
      rwa [← Option.some.inj same]
    · exact .inr failed

theorem not_refused_of_ok {made : Option Diagnostic} (step : r.diagnose SourceFile.resolve newLine = .ok made) :
    ¬ (r.IsMisplaced ∨ r.IsUndroppable) := by
  rcases diagnose_cases newLine r with ⟨_, _, passed, _⟩ | ⟨e, failed, _⟩
  · exact passed
  · rw [step] at failed
    cases failed

theorem describes_of_some {d : Diagnostic} (step : r.diagnose SourceFile.resolve newLine = .ok (some d)) :
    Describes newLine r d := by
  rcases diagnose_cases newLine r with ⟨made, found, _, described⟩ | ⟨e, failed, _⟩
  · exact described d (Except.ok.inj (found.symm.trans step))
  · rw [step] at failed
    cases failed

theorem failsWith_of_error (step : r.diagnose SourceFile.resolve newLine = .error e) : r.FailsWith e := by
  rcases diagnose_cases newLine r with ⟨made, found, _⟩ | ⟨other, failed, fails⟩
  · rw [step] at found
    cases found
  · rwa [Except.error.inj (step.symm.trans failed)]

end Step

/-! ### All records -/

/-- Flattening fails exactly if some record is misplaced, or has no file and too long a code; it does so with the error
of the first such record. Else the records with a file become diagnostics, in order. The log tells of the records
without a file up to that point. -/
theorem flatten_places (settings : Settings) (records : List Record) :
    ((∃ e, (flatten SourceFile.resolve settings.newLine records).outcome = .error e) ↔
      ∃ r ∈ records, r.IsMisplaced ∨ r.IsUndroppable) ∧
    match (flatten SourceFile.resolve settings.newLine records).outcome with
    | .ok diagnostics =>
      List.Forall₂ (Describes settings.newLine) (attached records) diagnostics ∧
        (flatten SourceFile.resolve settings.newLine records).log = dropLog records
    | .error e =>
      ∃ before r after, records = before ++ r :: after ∧
        (∀ earlier ∈ before, ¬ (earlier.IsMisplaced ∨ earlier.IsUndroppable)) ∧
        r.FailsWith e ∧ (flatten SourceFile.resolve settings.newLine records).log = dropLog before := by
  have log : ∀ passed : List Record, ((detached passed).map (·.code)).map .droppedDiagnostic = dropLog passed := by
    intro passed
    rw [List.map_map]
    rfl
  have comes := flattensTo_flatten SourceFile.resolve settings.newLine records
  generalize flatten SourceFile.resolve settings.newLine records = flattening at comes ⊢
  cases comes with
  | @all diagnostics passed made =>
    refine ⟨?_, ?_, log records⟩
    · refine iff_of_false nofun fun ⟨r, member, refused⟩ => ?_
      obtain ⟨_, step⟩ := passed r member
      exact not_refused_of_ok step refused
    · rw [← List.forall₂_eq_eq_eq, List.forall₂_map_left_iff, List.forall₂_map_right_iff] at made
      exact made.imp fun r d step => describes_of_some step
  | @failed before after r e cut passed step =>
    have fails := failsWith_of_error step
    refine ⟨?_, before, r, after, cut, fun earlier member => ?_, fails, log before⟩
    · have member : r ∈ records := by
        rw [cut]
        exact List.mem_append_right _ List.mem_cons_self
      exact iff_of_true ⟨e, rfl⟩ ⟨r, member, fails.refused⟩
    · obtain ⟨_, step⟩ := passed earlier member
      exact not_refused_of_ok step

/-- A record without a file can make flattening fail, although no offset is wrong. -/
theorem flatten_long_code :
    (flatten SourceFile.resolve "\n" [⟨10 ^ 4300, .text "m", none, 0, 0, .error⟩]).outcome = .error .unwritable ∧
      ∀ r ∈ [(⟨10 ^ 4300, .text "m", none, 0, 0, .error⟩ : Record)], ¬ r.IsMisplaced := by
  -- For any number of digits: written out, the number would be computed.
  have long : ∀ digits ≥ Numeral.maxDigits, 10 ^ Numeral.maxDigits ≤ Int.natAbs (10 ^ digits) := by
    intro digits many
    rw [Int.natAbs_pow]
    exact Nat.pow_le_pow_right (by decide) many
  have undroppable : (⟨10 ^ 4300, .text "m", none, 0, 0, .error⟩ : Record).IsUndroppable :=
    ⟨rfl, long 4300 (by decide)⟩
  constructor
  · rw [flatten_of_error (diagnose_of_undroppable undroppable)]
  · intro r member
    obtain rfl := List.mem_singleton.mp member
    exact fun ⟨_, given, _⟩ => nomatch given

/-- A record past the end of its file; what comes behind it is not looked at. -/
example : flatten SourceFile.resolve "\n"
    [⟨1, .text "x", some ⟨"a.ts", "a\r\nb"⟩, 3, 0, .error⟩, ⟨3, .absent, some ⟨"b.ts", "b"⟩, 2, 0, .error⟩,
      ⟨4, .absent, none, 0, 0, .error⟩] =
    ⟨[], .error (.misplaced (.pastEnd 2 "b.ts" 1))⟩ := rfl

end CompilerAdapter.Record
