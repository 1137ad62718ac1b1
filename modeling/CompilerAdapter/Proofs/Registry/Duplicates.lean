import CompilerAdapter.Proofs.Number.Value
import CompilerAdapter.Registry.Basic

/-!
# Codes that two entries share

The search for a code given twice stops at the first entry whose code an earlier one has. It goes through the entries
with those that it has passed, the last one first; these have distinct codes.
-/

namespace CompilerAdapter.Registry

/-- The codes of the entries have distinct values. -/
def DistinctCodes (entries : List Entry) : Prop :=
  entries.Pairwise fun a b => a.code.value? ≠ b.code.value?

/-- `later` is the first entry whose code an earlier one has, and `earlier` is the only one that has it. -/
def IsFirstDuplicate (entries : List Entry) (earlier later : Entry) : Prop :=
  ∃ before after, entries = before ++ later :: after ∧ DistinctCodes before ∧
    ∀ e, e ∈ before ∧ e.code.value? = later.code.value? ↔ e = earlier

/-- What the search finds. -/
inductive SearchOutcome (entries : List Entry) : Option Duplicate → Prop
  | distinct (all : DistinctCodes entries) : SearchOutcome entries none
  | shared {earlier later : Entry} (first : IsFirstDuplicate entries earlier later) :
    SearchOutcome entries (some ⟨later.code, earlier.key, later.key⟩)

variable {entries before after passed rest : List Entry} {earlier later e : Entry}

theorem IsFirstDuplicate.not_distinctCodes (duplicate : IsFirstDuplicate entries earlier later) :
    ¬ DistinctCodes entries := by
  obtain ⟨before, after, rfl, _, only⟩ := duplicate
  obtain ⟨member, same⟩ := (only earlier).mpr rfl
  intro distinct
  have apart := (List.pairwise_append.mp distinct).2.2 earlier member later List.mem_cons_self
  exact apart same

theorem DistinctCodes.eq_of_value?_eq (distinct : DistinctCodes entries) (first : earlier ∈ entries)
    (second : e ∈ entries) (same : e.code.value? = earlier.code.value?) : e = earlier := by
  by_contra different
  have symmetric : Std.Symm fun a b : Entry => a.code.value? ≠ b.code.value? := ⟨fun _ _ apart => apart.symm⟩
  exact distinct.forall second first different same

theorem distinctCodes_snoc :
    DistinctCodes (before ++ [e]) ↔ DistinctCodes before ∧ ∀ other ∈ before, other.code.value? ≠ e.code.value? := by
  simp [DistinctCodes, List.pairwise_append]

theorem find?_equal_eq_none (counted : ∀ other ∈ passed, other.code.IsCount) (count : e.code.IsCount) :
    passed.find? (·.code.equal e.code) = none ↔ ∀ other ∈ passed, other.code.value? ≠ e.code.value? := by
  rw [List.find?_eq_none]
  refine forall₂_congr fun other member => ?_
  obtain ⟨m, _, first⟩ := counted other member
  obtain ⟨n, _, second⟩ := count
  rw [Number.equal_iff first second, first, second, ne_eq, Option.some.injEq]

theorem isFirstDuplicate_of_find? (counted : ∀ other ∈ passed, other.code.IsCount) (count : e.code.IsCount)
    (distinct : DistinctCodes passed.reverse) (found : passed.find? (·.code.equal e.code) = some earlier) :
    IsFirstDuplicate (passed.reverse ++ e :: rest) earlier e := by
  have member := List.mem_of_find?_eq_some found
  have same : earlier.code.value? = e.code.value? := by
    obtain ⟨m, _, first⟩ := counted earlier member
    obtain ⟨n, _, second⟩ := count
    have equal : earlier.code.equal e.code = true := by simpa using List.find?_some found
    rw [first, second, (Number.equal_iff first second).mp equal]
  refine ⟨passed.reverse, rest, rfl, distinct, fun other => ?_⟩
  constructor
  · intro shares
    exact distinct.eq_of_value?_eq (List.mem_reverse.mpr member) shares.1 (shares.2.trans same.symm)
  · rintro rfl
    exact ⟨List.mem_reverse.mpr member, same⟩

theorem searchOutcome_from (counted : ∀ e ∈ passed ++ rest, e.code.IsCount) (distinct : DistinctCodes passed.reverse) :
    SearchOutcome (passed.reverse ++ rest) (duplicateFrom? passed rest) := by
  -- The invariant is that the entries passed have distinct codes; a step adds one that none of them has.
  induction rest generalizing passed with
  | nil =>
    rw [List.append_nil]
    exact .distinct distinct
  | cons e rest ih =>
    have counts : (∀ other ∈ passed, other.code.IsCount) ∧ e.code.IsCount ∧ ∀ other ∈ rest, other.code.IsCount := by
      simpa [or_imp, forall_and] using counted
    obtain ⟨behind, here, ahead⟩ := counts
    unfold duplicateFrom?
    cases found : passed.find? (·.code.equal e.code) with
    | some earlier => exact .shared (isFirstDuplicate_of_find? behind here distinct found)
    | none =>
      have fresh := (find?_equal_eq_none behind here).mp found
      have onward : SearchOutcome ((e :: passed).reverse ++ rest) (duplicateFrom? (e :: passed) rest) := by
        apply ih
        · simpa [or_imp, forall_and] using ⟨here, behind, ahead⟩
        · rw [List.reverse_cons, distinctCodes_snoc]
          exact ⟨distinct, by simpa using fresh⟩
      simpa using onward

theorem searchOutcome (counted : ∀ e ∈ entries, e.code.IsCount) :
    SearchOutcome entries (duplicateFrom? [] entries) := by
  show SearchOutcome ([].reverse ++ entries) (duplicateFrom? [] entries)
  exact searchOutcome_from counted .nil

end CompilerAdapter.Registry
