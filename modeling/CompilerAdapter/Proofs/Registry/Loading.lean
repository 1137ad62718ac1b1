import CompilerAdapter.Configuration.Loading
import CompilerAdapter.Proofs.Outcome
import CompilerAdapter.Proofs.Registry.Entries
import CompilerAdapter.Proofs.Schema.Violations
import CompilerAdapter.Proofs.Text.Encoding

/-!
# Loading registries

What becomes of a document that follows the schema of a registry, and which keys the registries have that are loaded.
-/

namespace CompilerAdapter.Configuration

open Registry (Entry DistinctCodes IsFirstDuplicate IsIdentifier IsAdmittedKey)
open Yaml (Document)

variable {file : String} {source : Source} {text : List Char} {d : Document} {entries : List Entry}

/-! ### From a file to its document -/

theorem unifyLineEnds_of_no_cr (clean : ∀ c ∈ text, c ≠ '\r') : unifyLineEnds text = text := by
  induction text with
  | nil => rfl
  | cons c rest ih =>
    obtain ⟨here, later⟩ := List.forall_mem_cons.mp clean
    simp [unifyLineEnds, here, ih later]

/-- A file of ASCII characters without carriage returns holds the text that is in it. -/
theorem text_of_plain (role : Role) (file : String)
    (plain : text.all (fun c => decide (c.toNat < 0x80) && c != '\r') = true) :
    Source.text role file (.bytes (text.map Char.toUInt8)) = .ok text := by
  simp only [List.all_eq_true, Bool.and_eq_true, decide_eq_true_eq, bne_iff_ne] at plain
  rw [Source.text, Utf8.decode_plain fun c member => (plain c member).1]
  exact congrArg Except.ok (unifyLineEnds_of_no_cr fun c member => (plain c member).2)

theorem checked_of_follows {schema : Schema} (follows : schema.violations [] d = []) :
    checked file schema d = .ok (Layered.value d) := by
  simp [checked, follows, Violation.obstacle?, Violation.best?]

theorem follows_of_checked {schema : Schema} {v : Value} (passed : checked file schema d = .ok v) :
    schema.violations [] d = [] ∧ v = Layered.value d := by
  unfold checked at passed
  dsimp only at passed
  split at passed
  · cases passed
  · cases passed
  · cases passed
  · rename_i free
    exact ⟨Violation.best?_eq_none.mp free, (Except.ok.inj passed).symm⟩

theorem document_eq_of_follows {schema : Schema} (parsed : Yaml.read text = .ok d)
    (follows : schema.violations [] d = []) : document file schema false text = .ok (Layered.value d) := by
  simp [document, parsed, checked_of_follows follows]

theorem exists_of_document {schema : Schema} {v : Value} (found : document file schema false text = .ok v) :
    ∃ d, Yaml.read text = .ok d ∧ schema.violations [] d = [] ∧ v = Layered.value d := by
  cases parsed : Yaml.read text with
  | error fault =>
    rw [document, parsed] at found
    cases fault <;> cases found
  | ok d =>
    have passed : checked file schema d = .ok v := by simpa [document, parsed] using found
    exact ⟨d, rfl, follows_of_checked passed⟩

theorem loadRegistry_eq (given : source.text .registry file = .ok text) (parsed : Yaml.read text = .ok d)
    (follows : Registry.schema.violations [] d = []) : loadRegistry file source =
      ⟨[.loadedFile file], (Registry.ofValue (Layered.value d)).mapError (.ofDuplicate file)⟩ := by
  have found : source.text .registry file >>= document file Registry.schema false = .ok (Layered.value d) := by
    rw [given]
    exact document_eq_of_follows parsed follows
  simp only [loadRegistry, found]

theorem exists_of_loadRegistry (loaded : (loadRegistry file source).outcome = .ok entries) : ∃ d : Document,
    Registry.schema.violations [] d = [] ∧ Registry.ofValue (Layered.value d) = .ok entries := by
  cases found : source.text .registry file >>= document file Registry.schema false with
  | error e =>
    simp only [loadRegistry, found] at loaded
    cases loaded
  | ok v =>
    simp only [loadRegistry, found] at loaded
    obtain ⟨text, _, made⟩ := bind_eq_ok.mp found
    obtain ⟨d, _, follows, rfl⟩ := exists_of_document made
    exact ⟨d, follows, mapError_eq_ok.mp loaded⟩

/-! ### Keys -/

theorem loadRegistry_keys (loaded : (loadRegistry file source).outcome = .ok entries) : ∀ e ∈ entries,
    IsAdmittedKey e.key ∧ ((∃ name, e.key = .string name ∧ IsIdentifier name.toList) ↔
      ∃ s, e.key = .string s ∧ s.toList.getLast? ≠ some '\n') := by
  obtain ⟨d, follows, made⟩ := exists_of_loadRegistry loaded
  intro e member
  have admitted := Registry.isAdmittedKey_of_ofValue (Registry.violations_eq_nil.mp follows) made member
  exact ⟨admitted, admitted.isIdentifier_iff⟩

/-- A registry with a line feed at the end of a key. -/
def brokenKey : List Char :=
  "version: '1.0'\ncodes: \x7ba: \x7bcode: 1, category: error, message: m\x7d, ".toList ++
    "\"b\\n\": \x7bcode: 2, category: error, message: m\x7d\x7d\n".toList

theorem exists_entries_brokenKey : ∃ entries,
    (loadRegistry "codes.yaml" (.bytes (brokenKey.map Char.toUInt8))).outcome = .ok entries ∧
      entries.map (·.key) = [.string "a", .string "b\n"] := by
  have run : ((loadRegistry "codes.yaml" (.bytes (brokenKey.map Char.toUInt8))).outcome.toOption.map fun entries =>
      entries.map (·.key)) = some [.string "a", .string "b\n"] := by decide +kernel
  exact exists_ok_of_toOption_map run

theorem loadRegistry_keys_brokenKey : ∃ entries,
    (loadRegistry "codes.yaml" (.bytes (brokenKey.map Char.toUInt8))).outcome = .ok entries ∧
      (∃ e ∈ entries, e.key = .string "a" ∧ IsIdentifier "a".toList) ∧
      ∃ e ∈ entries, e.key = .string "b\n" ∧ IsAdmittedKey e.key := by
  obtain ⟨entries, loaded, keys⟩ := exists_entries_brokenKey
  have each := loadRegistry_keys loaded
  refine ⟨entries, loaded, ?_, ?_⟩
  · obtain ⟨e, member, same⟩ : ∃ e ∈ entries, e.key = .string "a" := List.mem_map.mp (by simp [keys])
    obtain ⟨name, named, identifier⟩ := (each e member).2.mpr ⟨"a", same, by decide⟩
    obtain rfl : "a" = name := Scalar.string.inj (same.symm.trans named)
    exact ⟨e, member, same, identifier⟩
  · obtain ⟨e, member, same⟩ : ∃ e ∈ entries, e.key = .string "b\n" := List.mem_map.mp (by simp [keys])
    exact ⟨e, member, same, (each e member).1⟩

theorem loadRegistry_admits_line_feed : ∃ entries,
    (loadRegistry "codes.yaml" (.bytes (brokenKey.map Char.toUInt8))).outcome = .ok entries ∧
      (∃ e ∈ entries, e.key = .string "b\n") ∧
      ¬ ∀ e ∈ entries, ∃ name, e.key = .string name ∧ IsIdentifier name.toList := by
  obtain ⟨entries, loaded, keys⟩ := exists_entries_brokenKey
  obtain ⟨e, member, same⟩ : ∃ e ∈ entries, e.key = .string "b\n" := List.mem_map.mp (by simp [keys])
  refine ⟨entries, loaded, ⟨e, member, same⟩, fun all => ?_⟩
  obtain ⟨name, named, identifier⟩ := all e member
  obtain rfl : "b\n" = name := Scalar.string.inj (same.symm.trans named)
  have ended : IsIdentifier (['b'] ++ ['\n']) := identifier
  exact ended.not_snoc_lineFeed

/-! ### Duplicate codes -/

theorem loadRegistry_of_follows (given : source.text .registry file = .ok text) (parsed : Yaml.read text = .ok d)
    (follows : Registry.schema.violations [] d = []) :
    ∃ part fields entries, d.field? "codes" = some part ∧ Layered.layer part = .object fields ∧
      List.Forall₂ Entry.Describes entries fields ∧
      (DistinctCodes entries → loadRegistry file source = ⟨[.loadedFile file], .ok entries⟩) ∧
      (¬ DistinctCodes entries → ∃ earlier later, IsFirstDuplicate entries earlier later ∧
        loadRegistry file source = ⟨[.loadedFile file], .error
          (if later.code.isWritable && earlier.key.isWritable && later.key.isWritable then
            .duplicateCode file ⟨later.code, earlier.key, later.key⟩
          else .unwritable)⟩) := by
  obtain ⟨part, fields, entries, found, codes, layer, described, search, made⟩ :=
    Registry.exists_described (Registry.violations_eq_nil.mp follows)
  refine ⟨part, fields, entries, codes, layer, described, ?_⟩
  rw [loadRegistry_eq given parsed follows, made]
  cases search with
  | distinct all => exact ⟨fun _ => rfl, fun shared => absurd all shared⟩
  | shared first => exact ⟨fun all => absurd all first.not_distinctCodes, fun _ => ⟨_, _, first, rfl⟩⟩

def sharedCode : List Char :=
  "version: '1.0'\ncodes:\n  a: \x7bcode: 1, category: error, message: m\x7d\n".toList ++
    "  b: \x7bcode: 1.0, category: error, message: m\x7d\n".toList

theorem loadRegistry_of_follows_shared_code : ∃ source d entries earlier later,
    Source.text .registry "codes.yaml" source = .ok sharedCode ∧ Yaml.read sharedCode = .ok d ∧
      Registry.schema.violations [] d = [] ∧ IsFirstDuplicate entries earlier later ∧
      (loadRegistry "codes.yaml" source).outcome =
        .error (.duplicateCode "codes.yaml" ⟨later.code, earlier.key, later.key⟩) ∧
      (LoadError.duplicateCode "codes.yaml" ⟨later.code, earlier.key, later.key⟩).message =
        "Code 1.0 assigned to both 'a' and 'b'" := by
  let source : Source := .bytes (sharedCode.map Char.toUInt8)
  have given : source.text .registry "codes.yaml" = .ok sharedCode := text_of_plain _ _ (by decide +kernel)
  have run : ((Yaml.read sharedCode).toOption.map fun d => ((Registry.schema.violations [] d).isEmpty,
      (error? (Registry.ofValue (Layered.value d))).map fun duplicate =>
        (LoadError.ofDuplicate "codes.yaml" duplicate).message)) =
      some (true, some "Code 1.0 assigned to both 'a' and 'b'") := by decide +kernel
  obtain ⟨d, parsed, facts⟩ := exists_ok_of_toOption_map run
  obtain ⟨free, said⟩ := Prod.mk.inj facts
  have follows := List.isEmpty_iff.mp free
  obtain ⟨duplicate, refused, message⟩ := Option.map_eq_some_iff.mp said
  have failed : loadRegistry "codes.yaml" source = ⟨_, _⟩ := loadRegistry_eq given parsed follows
  rw [eq_error_of_error? refused] at failed
  obtain ⟨_, _, entries, _, _, _, distinct, shared⟩ := loadRegistry_of_follows given parsed follows
  have repeated : ¬ DistinctCodes entries := by
    intro all
    cases failed.symm.trans (distinct all)
  obtain ⟨earlier, later, first, outcome⟩ := shared repeated
  have reported := Except.error.inj (congrArg Loading.outcome (failed.symm.trans outcome))
  rw [reported] at message
  split at message
  · rename_i writable
    rw [if_pos writable] at outcome
    exact ⟨source, d, entries, earlier, later, given, parsed, follows, first, congrArg Loading.outcome outcome, message⟩
  · exact absurd message (by decide)

/-- A registry that gives one code twice, first to a key of 3600 hexadecimal digits. -/
def longKeyed : List Char :=
  "version: '1.0'\ncodes:\n  ? !!int \"0x".toList ++
    (List.replicate 6 (List.replicate 600 'F' ++ ['\\', '\n'])).flatten ++
    "\"\n  : \x7bcode: 1, category: error, message: m\x7d\n  b: \x7bcode: 1, category: error, message: m\x7d\n".toList

theorem loadRegistry_long_key : ∃ source d, Source.text .registry "codes.yaml" source = .ok longKeyed ∧
    Yaml.read longKeyed = .ok d ∧ Registry.schema.violations [] d = [] ∧
    Registry.ofValue (Layered.value d) = .error ⟨.int 1, .number (.int (16 ^ 3600 - 1)), .string "b"⟩ ∧
    (loadRegistry "codes.yaml" source).outcome = .error .unwritable := by
  let source : Source := .bytes (longKeyed.map Char.toUInt8)
  have given : source.text .registry "codes.yaml" = .ok longKeyed := text_of_plain _ _ (by decide +kernel)
  have run : ((Yaml.read longKeyed).toOption.map fun d =>
      ((Registry.schema.violations [] d).isEmpty, error? (Registry.ofValue (Layered.value d)))) =
      some (true, some ⟨.int 1, .number (.int (16 ^ 3600 - 1)), .string "b"⟩) := by decide +kernel
  obtain ⟨d, parsed, facts⟩ := exists_ok_of_toOption_map run
  obtain ⟨free, refused⟩ := Prod.mk.inj facts
  have follows := List.isEmpty_iff.mp free
  have shared := eq_error_of_error? refused
  refine ⟨source, d, given, parsed, follows, shared, ?_⟩
  have long : (Number.int (16 ^ 3600 - 1)).isWritable = false := by decide +kernel
  rw [loadRegistry_eq given parsed follows, shared]
  simp only [Except.mapError, LoadError.ofDuplicate, Scalar.isWritable, long, Bool.and_false, Bool.false_and]
  rfl

end CompilerAdapter.Configuration
