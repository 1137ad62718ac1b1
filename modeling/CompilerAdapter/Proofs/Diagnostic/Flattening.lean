import CompilerAdapter.Diagnostic.Flattening

/-!
# What flattening comes to

Flattening passes all records, or those up to the first that fails: `flattensTo_flatten`. If it passes all, its
diagnostics are those of the records with a file, in order. The codes that it logs can be written, whatever it comes to:
`isWritable_of_mem_dropped`.
-/

namespace CompilerAdapter

variable {resolve : Resolver} {newLine : String} {records : List Record} {diagnostics : List Diagnostic}

namespace Record

section Step

variable {r : Record} {e : FlatteningError} {d : Diagnostic}

theorem diagnose_eq_none_iff :
    r.diagnose resolve newLine = .ok none ↔ r.file = none ∧ (Number.int r.code).isWritable = true := by
  unfold diagnose
  split
  · rename_i detached
    simp [detached]
  · rename_i file attached
    split <;> simp [attached]

theorem diagnose_eq_some_iff : r.diagnose resolve newLine = .ok (some d) ↔ ∃ file position, r.file = some file ∧
    resolve file r.start = .ok position ∧ d = r.toDiagnostic newLine file position := by
  unfold diagnose
  split
  · rename_i detached
    split <;> simp [detached]
  · rename_i file attached
    split
    · rename_i refused
      simp [attached, refused]
    · rename_i position found
      simp [attached, found, eq_comm]

theorem flatten_of_error (failed : r.diagnose resolve newLine = .error e) :
    flatten resolve newLine (r :: records) = ⟨[], .error e⟩ := by
  rw [flatten, failed]

theorem flatten_of_none (dropped : r.diagnose resolve newLine = .ok none) :
    flatten resolve newLine (r :: records) =
      ⟨r.code :: (flatten resolve newLine records).dropped, (flatten resolve newLine records).outcome⟩ := by
  rw [flatten, dropped]

theorem flatten_of_some (made : r.diagnose resolve newLine = .ok (some d)) :
    flatten resolve newLine (r :: records) =
      ⟨(flatten resolve newLine records).dropped, (flatten resolve newLine records).outcome.map (d :: ·)⟩ := by
  rw [flatten, made]

end Step

/-! ### All records -/

def attached (records : List Record) : List Record := records.filter (·.file.isSome)

def detached (records : List Record) : List Record := records.filter (·.file.isNone)

/-- Records none of which fails. -/
def Passed (resolve : Resolver) (newLine : String) (records : List Record) : Prop :=
  ∀ r ∈ records, ∃ made, r.diagnose resolve newLine = .ok made

/-- What flattening comes to: all records are passed, or those up to the first that fails. -/
inductive FlattensTo (resolve : Resolver) (newLine : String) (records : List Record) :
    Flattening (List Diagnostic) → Prop where
  | all {diagnostics : List Diagnostic} (passed : Passed resolve newLine records)
      (made : (attached records).map (·.diagnose resolve newLine) = diagnostics.map fun d => .ok (some d)) :
      FlattensTo resolve newLine records ⟨(detached records).map (·.code), .ok diagnostics⟩
  | failed {before after : List Record} {r : Record} {e : FlatteningError} (cut : records = before ++ r :: after)
      (passed : Passed resolve newLine before) (refused : r.diagnose resolve newLine = .error e) :
      FlattensTo resolve newLine records ⟨(detached before).map (·.code), .error e⟩

namespace FlattensTo

variable {r : Record} {f : Flattening (List Diagnostic)}

theorem cons_of_none (dropped : r.diagnose resolve newLine = .ok none) (later : FlattensTo resolve newLine records f) :
    FlattensTo resolve newLine (r :: records) ⟨r.code :: f.dropped, f.outcome⟩ := by
  have detach : r.file = none := (diagnose_eq_none_iff.mp dropped).1
  have codes : ∀ others, r.code :: (detached others).map (·.code) = (detached (r :: others)).map (·.code) := by
    intro others
    simp [detached, detach]
  cases later with
  | all passed made =>
    rw [codes]
    refine .all (List.forall_mem_cons.mpr ⟨⟨_, dropped⟩, passed⟩) ?_
    simpa [attached, detach] using made
  | @failed before after _ _ cut passed refused =>
    rw [codes]
    have further : r :: records = (r :: before) ++ _ :: after := congrArg (r :: ·) cut
    exact .failed further (List.forall_mem_cons.mpr ⟨⟨_, dropped⟩, passed⟩) refused

theorem cons_of_some {d : Diagnostic} (here : r.diagnose resolve newLine = .ok (some d))
    (later : FlattensTo resolve newLine records f) :
    FlattensTo resolve newLine (r :: records) ⟨f.dropped, f.outcome.map (d :: ·)⟩ := by
  obtain ⟨file, _, attach, _⟩ := diagnose_eq_some_iff.mp here
  have codes : ∀ others, detached others = detached (r :: others) := by
    intro others
    simp [detached, attach]
  cases later with
  | all passed made =>
    rw [codes]
    refine .all (List.forall_mem_cons.mpr ⟨⟨_, here⟩, passed⟩) ?_
    simpa [attached, attach, here] using made
  | @failed before after _ _ cut passed refused =>
    rw [codes]
    have further : r :: records = (r :: before) ++ _ :: after := congrArg (r :: ·) cut
    exact .failed further (List.forall_mem_cons.mpr ⟨⟨_, here⟩, passed⟩) refused

end FlattensTo

theorem flattensTo_flatten (resolve : Resolver) (newLine : String) (records : List Record) :
    FlattensTo resolve newLine records (flatten resolve newLine records) := by
  induction records with
  | nil => exact .all (by simp [Passed]) rfl
  | cons r records ih =>
    cases step : r.diagnose resolve newLine with
    | error e =>
      rw [flatten_of_error step]
      have first : r :: records = [] ++ r :: records := rfl
      exact .failed first (by simp [Passed]) step
    | ok made =>
      cases made with
      | none =>
        rw [flatten_of_none step]
        exact ih.cons_of_none step
      | some d =>
        rw [flatten_of_some step]
        exact ih.cons_of_some step

theorem Passed.isWritable (passed : Passed resolve newLine records) {code : Int}
    (member : code ∈ (detached records).map (·.code)) : (Number.int code).isWritable = true := by
  obtain ⟨r, here, rfl⟩ := List.mem_map.mp member
  obtain ⟨here, detach⟩ := List.mem_filter.mp here
  obtain ⟨made, step⟩ := passed r here
  cases made with
  | none => exact (diagnose_eq_none_iff.mp step).2
  | some d =>
    obtain ⟨_, _, attach, _⟩ := diagnose_eq_some_iff.mp step
    simp [attach] at detach

/-- Every code that is logged can be written. -/
theorem isWritable_of_mem_dropped {code : Int} (member : code ∈ (flatten resolve newLine records).dropped) :
    (Number.int code).isWritable = true := by
  have comes := flattensTo_flatten resolve newLine records
  generalize flatten resolve newLine records = f at comes member
  cases comes with
  | all passed _ => exact passed.isWritable member
  | failed _ passed _ => exact passed.isWritable member

/-! ### Where the diagnostics come from -/

theorem map_diagnose_of_flatten (h : (flatten resolve newLine records).outcome = .ok diagnostics) :
    (attached records).map (·.diagnose resolve newLine) = diagnostics.map fun d => .ok (some d) := by
  have comes := flattensTo_flatten resolve newLine records
  generalize flatten resolve newLine records = f at comes h
  cases comes with
  | all _ made =>
    obtain rfl := Except.ok.inj h
    exact made
  | failed => cases h

theorem mem_of_flatten (h : (flatten resolve newLine records).outcome = .ok diagnostics) {d : Diagnostic}
    (member : d ∈ diagnostics) : ∃ r ∈ records, ∃ file position, r.file = some file ∧
      resolve file r.start = .ok position ∧ d = r.toDiagnostic newLine file position := by
  have made : Except.ok (some d) ∈ (attached records).map (·.diagnose resolve newLine) := by
    rw [map_diagnose_of_flatten h]
    exact List.mem_map_of_mem member
  obtain ⟨r, here, step⟩ := List.mem_map.mp made
  exact ⟨r, (List.mem_filter.mp here).1, diagnose_eq_some_iff.mp step⟩

theorem toDiagnostic_mem_of_flatten (h : (flatten resolve newLine records).outcome = .ok diagnostics) {r : Record}
    (member : r ∈ records) {file : SourceFile} (attach : r.file = some file) :
    ∃ position, resolve file r.start = .ok position ∧ r.toDiagnostic newLine file position ∈ diagnostics := by
  have here : r ∈ attached records := List.mem_filter.mpr ⟨member, by simp [attach]⟩
  have made : r.diagnose resolve newLine ∈ diagnostics.map fun d => .ok (some d) := by
    rw [← map_diagnose_of_flatten h]
    exact List.mem_map_of_mem here
  obtain ⟨d, among, step⟩ := List.mem_map.mp made
  obtain ⟨other, position, given, found, rfl⟩ := diagnose_eq_some_iff.mp step.symm
  obtain rfl := Option.some.inj (attach.symm.trans given)
  exact ⟨position, found, among⟩

end Record

/-- A report is made of what the records of both phases come to. -/
theorem Report.create_eq_ok {syntactic semantic : List Record} {report : Report}
    (h : (Report.create resolve newLine syntactic semantic).outcome = .ok report) :
    (Record.flatten resolve newLine syntactic).outcome = .ok report.syntactic ∧
      (Record.flatten resolve newLine semantic).outcome = .ok report.semantic := by
  unfold Report.create at h
  dsimp only at h
  split at h
  · cases h
  · rename_i first made
    dsimp only at h
    cases rest : (Record.flatten resolve newLine semantic).outcome with
    | error e =>
      rw [rest] at h
      cases h
    | ok second =>
      rw [rest] at h
      obtain rfl := Except.ok.inj h
      exact ⟨made, rfl⟩

end CompilerAdapter
