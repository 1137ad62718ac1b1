import CompilerAdapter.Regex.Language
import CompilerAdapter.Wildcard.Pattern

/-!
# Lists of specs

A list of specs selects what any of its specs selects on its own: `selects_iff_exists_spec`. So it does not matter in
which order the specs stand, how often they come up, or which specs without a pattern stand among them.
-/

namespace CompilerAdapter.Wildcard

variable {usage : Usage} {base : String} {specs : List String} {same : Char → Char → Bool} {path : List Char}

/-- Whether specs have a pattern that matches a path. -/
def Selects (usage : Usage) (base : String) (specs : List String) (same : Char → Char → Bool) (path : List Char) :
    Prop :=
  ∃ p, pattern? usage base specs = some p ∧ p.test same path = true

def expressions (usage : Usage) (base : String) (specs : List String) : List Regex :=
  (specs.filter (!·.isEmpty)).filterMap (specRegex? usage base)

/-- An expression, and what ends a match behind it, match the start of a path. -/
def MatchesStart (usage : Usage) (same : Char → Char → Bool) (path : List Char) (r : Regex) : Prop :=
  ∃ t, r.Matches same path t ∧ ∃ u, (terminator usage).Matches same t u

/-! ### From the expressions of specs to their pattern -/

theorem mem_expressions {r : Regex} : r ∈ expressions usage base specs ↔
    ∃ spec ∈ specs, r ∈ expressions usage base [spec] := by
  have single : ∀ spec, r ∈ expressions usage base [spec] ↔ spec ≠ "" ∧ specRegex? usage base spec = some r := by
    intro spec
    by_cases empty : spec = "" <;> simp [expressions, empty]
  simp only [single]
  simp [expressions, and_assoc]

theorem pattern?_eq_none_iff : pattern? usage base specs = none ↔ expressions usage base specs = [] := by
  unfold pattern? expressions
  split
  · rename_i empty
    exact iff_of_true rfl empty
  · rename_i made
    rw [made]
    exact iff_of_false nofun nofun

theorem pattern?_of_expressions {first : Regex} {rest : List Regex}
    (made : expressions usage base specs = first :: rest) : pattern? usage base specs =
      some ⟨.seq (.group (.choice (.group first) (rest.map .group))) (terminator usage)⟩ := by
  unfold expressions at made
  rw [pattern?, made]

theorem named_of_mem_expressions {r : Regex} (made : r ∈ expressions usage base specs) :
    ∃ names, namesRegex? usage false false names = some r := by
  obtain ⟨spec, _, found⟩ := List.mem_filterMap.mp made
  unfold specRegex? at found
  dsimp only at found
  split at found
  · cases found
  · exact ⟨_, found⟩

/-- A pattern is made of the expressions of specs, one at least. -/
theorem pattern?_eq_some {p : Pattern} (made : pattern? usage base specs = some p) :
    ∃ first rest, (∀ r ∈ first :: rest, ∃ names, namesRegex? usage false false names = some r) ∧
      p = ⟨.seq (.group (.choice (.group first) (rest.map .group))) (terminator usage)⟩ := by
  cases listed : expressions usage base specs with
  | nil => exact absurd (made.symm.trans (pattern?_eq_none_iff.mpr listed)) nofun
  | cons first rest =>
    have same := Option.some.inj (made.symm.trans (pattern?_of_expressions listed))
    exact ⟨first, rest, fun r member => named_of_mem_expressions (listed ▸ member), same⟩

theorem matches_choice {first : Regex} {rest : List Regex} {s t : List Char} :
    (Regex.choice first rest).Matches same s t ↔ ∃ r ∈ first :: rest, r.Matches same s t := by
  induction rest generalizing first with
  | nil => simp [Regex.choice]
  | cons next rest ih =>
    have either : (Regex.choice first (next :: rest)).Matches same s t ↔
        first.Matches same s t ∨ (Regex.choice next rest).Matches same s t := Iff.rfl
    rw [either, ih]
    simp

theorem matches_groups {first : Regex} {rest : List Regex} {s t : List Char} :
    (Regex.choice (.group first) (rest.map .group)).Matches same s t ↔ ∃ r ∈ first :: rest, r.Matches same s t := by
  rw [matches_choice, ← List.map_cons]
  constructor
  · rintro ⟨_, listed, matched⟩
    obtain ⟨r, member, rfl⟩ := List.mem_map.mp listed
    exact ⟨r, member, matched⟩
  · rintro ⟨r, member, matched⟩
    exact ⟨.group r, List.mem_map_of_mem member, matched⟩

theorem selects_iff : Selects usage base specs same path ↔
    ∃ r ∈ expressions usage base specs, MatchesStart usage same path r := by
  cases made : expressions usage base specs with
  | nil =>
    have none : pattern? usage base specs = none := pattern?_eq_none_iff.mpr made
    simp [Selects, none]
  | cons first rest =>
    simp only [Selects, pattern?_of_expressions made, Option.some.injEq, exists_eq_left', Pattern.test,
      Regex.run_eq_true_iff, and_true]
    constructor
    · rintro ⟨u, t, chosen, ended⟩
      obtain ⟨r, member, matched⟩ := matches_groups.mp chosen
      exact ⟨r, member, t, matched, u, ended⟩
    · rintro ⟨r, member, t, matched, u, ended⟩
      exact ⟨u, t, matches_groups.mpr ⟨r, member, matched⟩, ended⟩

/-! ### Main statement -/

theorem pattern?_eq_none_iff_forall_spec :
    pattern? usage base specs = none ↔ ∀ spec ∈ specs, pattern? usage base [spec] = none := by
  simp only [pattern?_eq_none_iff, List.eq_nil_iff_forall_not_mem]
  constructor
  · intro free spec member r made
    exact free r (mem_expressions.mpr ⟨spec, member, made⟩)
  · intro free r made
    obtain ⟨spec, member, made⟩ := mem_expressions.mp made
    exact free spec member r made

theorem selects_iff_exists_spec : Selects usage base specs same path ↔
    ∃ spec ∈ specs, Selects usage base [spec] same path := by
  simp only [selects_iff]
  constructor
  · rintro ⟨r, made, matched⟩
    obtain ⟨spec, member, made⟩ := mem_expressions.mp made
    exact ⟨spec, member, r, made, matched⟩
  · rintro ⟨spec, member, r, made, matched⟩
    exact ⟨r, mem_expressions.mpr ⟨spec, member, made⟩, matched⟩

/-- A list of specs means the union of its specs. -/
theorem specs_select_union (usage : Usage) (base : String) (specs : List String) (same : Char → Char → Bool) :
    (pattern? usage base specs = none ↔ ∀ spec ∈ specs, pattern? usage base [spec] = none) ∧
    (∀ path, Selects usage base specs same path ↔ ∃ spec ∈ specs, Selects usage base [spec] same path) ∧
    ∀ others : List String,
      (∀ spec, pattern? usage base [spec] ≠ none → (spec ∈ specs ↔ spec ∈ others)) →
      ∀ path, Selects usage base specs same path ↔ Selects usage base others same path := by
  refine ⟨pattern?_eq_none_iff_forall_spec, fun path => selects_iff_exists_spec, fun others alike path => ?_⟩
  rw [selects_iff_exists_spec, selects_iff_exists_spec]
  refine exists_congr fun spec => and_congr_left fun selected => alike spec ?_
  obtain ⟨p, made, _⟩ := selected
  simp [made]

theorem specs_select_union_reordered :
    (∀ spec, pattern? .exclude "/app" [spec] ≠ none →
      (spec ∈ ["lib", "a/**/b/**", "*.ts"] ↔ spec ∈ ["*.ts", "lib", "", "*.ts"])) ∧
    Selects .exclude "/app" ["lib", "a/**/b/**", "*.ts"] (· == ·) "/app/x.ts\n".toList ∧
    Selects .exclude "/app" ["*.ts", "lib", "", "*.ts"] (· == ·) "/app/x.ts\n".toList := by
  have silent : pattern? .exclude "/app" ["a/**/b/**"] = none ∧ pattern? .exclude "/app" [""] = none := by decide
  have alike : ∀ spec, pattern? .exclude "/app" [spec] ≠ none →
      (spec ∈ ["lib", "a/**/b/**", "*.ts"] ↔ spec ∈ ["*.ts", "lib", "", "*.ts"]) := by
    intro spec made
    have other : spec ≠ "a/**/b/**" ∧ spec ≠ "" :=
      ⟨fun same => made (same ▸ silent.1), fun same => made (same ▸ silent.2)⟩
    simp [other, or_comm]
  have selected : Selects .exclude "/app" ["lib", "a/**/b/**", "*.ts"] (· == ·) "/app/x.ts\n".toList :=
    ⟨_, rfl, by with_unfolding_all decide⟩
  obtain ⟨_, _, reordered⟩ := specs_select_union .exclude "/app" ["lib", "a/**/b/**", "*.ts"] (· == ·)
  exact ⟨alike, selected, (reordered _ alike _).mp selected⟩

end CompilerAdapter.Wildcard
