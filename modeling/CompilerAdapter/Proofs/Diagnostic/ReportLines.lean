import CompilerAdapter.Diagnostic.Basic
import CompilerAdapter.Proofs.Number.Numeral
import CompilerAdapter.Proofs.Text.Markers

/-!
# Reports told by their lines

On the line of a diagnostic the place ends where the mark of the code is found first, and the code ends at the next
colon, whatever the message holds. So a report of plain diagnostics is told by its lines: `all_eq_of_format_eq`.
-/

namespace CompilerAdapter

namespace Diagnostic

/-- The mark in front of the code. -/
def codeMark : String := ": TS"

/-- Its numbers are whole, its texts have no line feed, and the mark of the code does not come up in its file name. -/
structure IsPlain (d : Diagnostic) : Prop where
  code : ∃ n, d.code = .int n
  line : ∃ n, d.line = .int n
  column : ∃ n, d.column = .int n
  file_line : '\n' ∉ d.fileName.toList
  file_unmarked : ¬ codeMark.toList <:+: d.fileName.toList
  message_line : '\n' ∉ d.message.toList

/-- A line and a column as they are written. -/
def positionText (line column : Int) : List Char := intText line ++ ':' :: intText column

/-- A plain diagnostic as it is written, around the mark of the code. -/
theorem toList_format {line column code : Int} {file message : String} :
    (Diagnostic.mk (.int code) file message (.int line) (.int column)).format.toList =
      (file.toList ++ ':' :: positionText line column) ++ codeMark.toList ++
        (intText code ++ ':' :: ' ' :: message.toList) := by
  unfold format positionText codeMark
  simp [Number.text]

theorem not_mem_positionText {line column : Int} {c : Char} (other : c ≠ '-' ∧ c.isDigit = false)
    (apart : c ≠ ':') :
    c ∉ positionText line column := by
  unfold positionText
  rw [List.mem_append, List.mem_cons, not_or, not_or]
  exact ⟨not_mem_intText other, apart, not_mem_intText other⟩

/-- The mark of the code does not start in the place, whose line and column have no space. -/
theorem foundFirst_mark {file : List Char} (unmarked : ¬ codeMark.toList <:+: file) (line column : Int) :
    FoundFirst codeMark.toList (file ++ ':' :: positionText line column) := by
  have only : ':' ∉ [' ', 'T', 'S'] := by decide
  intro found
  rw [List.append_assoc] at found
  rcases infix_append_cons only found with within | beyond
  · exact unmarked within
  · change (':' :: [' ', 'T', 'S']) <:+: (':' :: positionText line column) ++ ':' :: [' ', 'T'] at beyond
    rcases infix_append_cons only beyond with within | beyond
    · have space : ' ' ∈ ':' :: positionText line column := within.subset (by decide)
      rcases List.mem_cons.mp space with colon | inside
      · exact absurd colon (by decide)
      · exact not_mem_positionText (by decide) (by decide) inside
    · exact absurd beyond.length_le (by decide)

theorem place_inj {file file' : List Char} {line line' column column' : Int}
    (h : file ++ ':' :: positionText line column = file' ++ ':' :: positionText line' column') :
    file = file' ∧ line = line' ∧ column = column' := by
  have colon : ∀ n, ':' ∉ intText n := fun _ => not_mem_intText (by decide)
  have regrouped : (file ++ ':' :: intText line) ++ ':' :: intText column =
      (file' ++ ':' :: intText line') ++ ':' :: intText column' := by
    simpa [positionText] using h
  obtain ⟨front, columns⟩ := append_cons_inj_of_last (colon column) (colon column') regrouped
  obtain ⟨files, lines⟩ := append_cons_inj_of_last (colon line) (colon line') front
  exact ⟨files, intText_injective lines, intText_injective columns⟩

theorem IsPlain.eq_mk {d : Diagnostic} (plain : d.IsPlain) : ∃ code line column : Int,
    d = ⟨.int code, d.fileName, d.message, .int line, .int column⟩ := by
  obtain ⟨code, coded⟩ := plain.code
  obtain ⟨line, lined⟩ := plain.line
  obtain ⟨column, columned⟩ := plain.column
  exact ⟨code, line, column, by rw [← coded, ← lined, ← columned]⟩

/-- Plain diagnostics are told apart by their lines. -/
theorem eq_of_format_eq {d d' : Diagnostic} (plain : d.IsPlain) (plain' : d'.IsPlain) (h : d.format = d'.format) :
    d = d' := by
  obtain ⟨code, line, column, whole⟩ := plain.eq_mk
  obtain ⟨code', line', column', whole'⟩ := plain'.eq_mk
  have texts := congrArg String.toList h
  rw [whole, whole', toList_format, toList_format] at texts
  obtain ⟨places, rests⟩ := (foundFirst_mark plain.file_unmarked line column).append_inj
    (foundFirst_mark plain'.file_unmarked line' column') (by decide) texts
  obtain ⟨files, lines, columns⟩ := place_inj places
  have colon : ∀ n, ':' ∉ intText n := fun _ => not_mem_intText (by decide)
  obtain ⟨codes, messages⟩ := append_cons_inj_of_first (colon code) (colon code') rests
  rw [whole, whole', intText_injective codes, lines, columns, String.toList_inj.mp files,
    String.toList_inj.mp (List.cons.inj messages).2]

theorem format_ne_nil (d : Diagnostic) : d.format.toList ≠ [] := by
  simp [format]

/-- A plain diagnostic is written on one line. -/
theorem IsPlain.format_line {d : Diagnostic} (plain : d.IsPlain) : '\n' ∉ d.format.toList := by
  obtain ⟨code, line, column, whole⟩ := plain.eq_mk
  have place : '\n' ∉ positionText line column := not_mem_positionText (by decide) (by decide)
  have coded : '\n' ∉ intText code := not_mem_intText (by decide)
  rw [whole, toList_format]
  simp [plain.file_line, plain.message_line, place, coded, codeMark]

end Diagnostic

namespace Report

variable {r r' : Report}

theorem toList_format (r : Report) :
    r.format.toList = ['\n'].intercalate (r.all.map fun d => d.format.toList) := by
  unfold format
  rw [String.toList_intercalate, List.map_map]
  rfl

theorem apart_lines (plain : ∀ d ∈ r.all, d.IsPlain) : Apart '\n' (r.all.map fun d => d.format.toList) :=
  apart_map.mpr fun d member => (plain d member).format_line

theorem format_eq_empty : r.format = "" ↔ r.all = [] := by
  rw [← String.toList_inj, toList_format]
  cases r.all with
  | nil => simp
  | cons d rest =>
    rw [List.map_cons, intercalate_eq_led]
    simp [d.format_ne_nil]

/-- Reports of plain diagnostics are told apart by their texts. -/
theorem all_eq_of_format_eq (plain : ∀ d ∈ r.all, d.IsPlain) (plain' : ∀ d ∈ r'.all, d.IsPlain)
    (h : r.format = r'.format) : r.all = r'.all := by
  have texts := congrArg String.toList h
  rw [toList_format, toList_format] at texts
  have both : r.all.map (fun d => d.format.toList) = [] ↔ r'.all.map (fun d => d.format.toList) = [] := by
    rw [List.map_eq_nil_iff, List.map_eq_nil_iff, ← format_eq_empty, ← format_eq_empty, h]
  have lines := intercalate_inj (apart_lines plain) (apart_lines plain') both texts
  exact eq_of_map_eq (fun d member d' member' same =>
    Diagnostic.eq_of_format_eq (plain d member) (plain' d' member') (String.toList_inj.mp same)) lines

theorem all_eq_of_format_eq_imitated :
    (Report.mk [⟨.int 1005, "a:1:2: T", "b.ts:1:1: TS1: x", .int 1, .int 20⟩]
      [⟨.int (-7), "", "", .int 3, .int 4⟩]).format = "a:1:2: T:1:20: TS1005: b.ts:1:1: TS1: x\n:3:4: TS-7: " ∧
    (Report.mk [⟨.int 1005, "a:1:2: T", "b.ts:1:1: TS1: x", .int 1, .int 20⟩]
      [⟨.int (-7), "", "", .int 3, .int 4⟩]).all =
    (Report.mk [] [⟨.int 1005, "a:1:2: T", "b.ts:1:1: TS1: x", .int 1, .int 20⟩,
      ⟨.int (-7), "", "", .int 3, .int 4⟩]).all := by
  have imitating : (Diagnostic.mk (.int 1005) "a:1:2: T" "b.ts:1:1: TS1: x" (.int 1) (.int 20)).IsPlain := by
    refine ⟨⟨_, rfl⟩, ⟨_, rfl⟩, ⟨_, rfl⟩, by decide, ?_, by decide⟩
    simp [Diagnostic.codeMark, List.infix_cons_iff]
  have empty : (Diagnostic.mk (.int (-7)) "" "" (.int 3) (.int 4)).IsPlain :=
    ⟨⟨_, rfl⟩, ⟨_, rfl⟩, ⟨_, rfl⟩, by decide, by simp [Diagnostic.codeMark], by decide⟩
  refine ⟨by decide, all_eq_of_format_eq ?_ ?_ rfl⟩
  · simp [all, imitating, empty]
  · simp [all, imitating, empty]

end Report

end CompilerAdapter
