import CompilerAdapter.Proofs.Wildcard.Names

/-!
# What the expressions for `**` consume

Behind a component, `**` consumes directories with a slash in front of each, and at the start of a path directories with
a slash behind each.
-/

namespace CompilerAdapter.Wildcard
open Regex

variable {usage : Usage} {s t : List Char}

theorem consumes_visibleDirectory : visibleDirectory.Consumes s t ↔
    ∃ part, s = part ++ t ∧ '/' ∉ part ∧ part ≠ [] ∧ part.head? ≠ some '.' := by
  constructor
  · intro found
    obtain ⟨u, ⟨c, rfl, pass⟩, more⟩ := found
    have visible := passes_noneOf.mp pass
    simp only [List.mem_cons, List.not_mem_nil, or_false, not_or] at visible
    obtain ⟨taken, rfl, inside⟩ := consumes_namePart.mp more
    exact ⟨c :: taken, rfl, by simp [Ne.symm visible.1, inside], by simp, by simpa using visible.2⟩
  · intro found
    obtain ⟨part, rfl, inside, filled, visible⟩ := found
    cases part with
    | nil => exact absurd rfl filled
    | cons c taken =>
      rw [List.mem_cons, not_or] at inside
      have point : c ≠ '.' := by simpa using visible
      refine ⟨taken ++ t, ⟨c, rfl, passes_noneOf.mpr (by simp [point, Ne.symm inside.1])⟩, ?_⟩
      exact consumes_namePart.mpr ⟨taken, rfl, inside.2⟩

/-- A directory that `**` takes if it does not exclude. -/
def IsVisible (part : List Char) : Prop := '/' ∉ part ∧ part ≠ [] ∧ part.head? ≠ some '.'

theorem all_visible_iff (including : usage ≠ .exclude) {taken : List (List Char)} :
    (∀ part ∈ taken, IsVisible part) ↔ Apart '/' taken ∧ RunTakes usage taken := by
  have run : RunTakes usage taken ↔ ∀ part ∈ taken, part ≠ [] ∧ part.head? ≠ some '.' := by
    cases usage <;> first | rfl | exact absurd rfl including
  rw [run]
  exact ⟨fun all => ⟨fun part member => (all part member).1, fun part member => (all part member).2⟩,
    fun both part member => ⟨both.1 part member, both.2 part member⟩⟩

/-- Any characters of a line, cut into the parts between slashes. -/
theorem consumes_anyParts (line : '\n' ∉ s) (isLazy : Bool) :
    (Regex.repeated .oneOrMore isLazy (.char .any)).Consumes s t ↔
      ∃ taken, taken ≠ [] ∧ taken ≠ [[]] ∧ Apart '/' taken ∧ '/' :: s = led '/' taken ++ t := by
  rw [consumes_some]
  constructor
  · intro found
    obtain ⟨u, filled, rfl, _⟩ := found
    refine ⟨splitAtEach '/' u, splitAtEach_ne_nil u, fun same => filled (splitAtEach_eq_empty.mp same),
      apart_splitAtEach u, ?_⟩
    rw [led_splitAtEach]
    rfl
  · intro found
    obtain ⟨taken, some, filled, apart, whole⟩ := found
    cases taken with
    | nil => exact absurd rfl some
    | cons part rest =>
      obtain rfl : s = part ++ led '/' rest ++ t := by simpa using whole
      refine ⟨part ++ led '/' rest, ?_, rfl, ?_⟩
      · intro none
        obtain ⟨rfl, empty⟩ := List.append_eq_nil_iff.mp none
        cases rest with
        | nil => exact filled rfl
        | cons _ _ => simp at empty
      · intro c member
        exact passes_any.mpr fun same => line (List.mem_append_left _ (same ▸ member))

/-- Behind a component, `**` consumes directories with a slash in front of each. -/
theorem consumes_innerDirectories (line : '\n' ∉ s) : (innerDirectories usage).Consumes s t ↔
    ∃ taken, Apart '/' taken ∧ RunTakes usage taken ∧ s = led '/' taken ++ t := by
  by_cases excludes : usage = .exclude
  · subst excludes
    constructor
    · intro found
      rcases found with same | ⟨u, sep, more⟩
      · obtain rfl : t = s := same
        exact ⟨[], apart_nil, runTakes_nil, rfl⟩
      · obtain rfl := consumes_slash.mp sep
        obtain ⟨taken, _, filled, apart, whole⟩ :=
          (consumes_anyParts (fun member => line (List.mem_cons_of_mem _ member)) true).mp more
        exact ⟨taken, apart, filled, whole⟩
    · intro found
      obtain ⟨taken, apart, filled, rfl⟩ := found
      cases taken with
      | nil => exact .inl rfl
      | cons part rest =>
        refine .inr ⟨part ++ led '/' rest ++ t, consumes_slash.mpr (by simp), ?_⟩
        refine (consumes_anyParts (fun member => line ?_) true).mpr ⟨part :: rest, by simp, filled, apart, by simp⟩
        simpa using member
  · have one : ∀ s t, (Regex.group (.seq slash visibleDirectory)).Consumes s t ↔
        ∃ part, IsVisible part ∧ s = '/' :: part ++ t := by
      intro s t
      constructor
      · intro found
        obtain ⟨u, sep, more⟩ := found
        obtain rfl := consumes_slash.mp sep
        obtain ⟨part, rfl, visible⟩ := consumes_visibleDirectory.mp more
        exact ⟨part, visible, rfl⟩
      · intro found
        obtain ⟨part, visible, rfl⟩ := found
        exact ⟨part ++ t, consumes_slash.mpr rfl, consumes_visibleDirectory.mpr ⟨part, rfl, visible⟩⟩
    have inner : innerDirectories usage = .repeated .zeroOrMore true (.group (.seq slash visibleDirectory)) := by
      cases usage <;> first | rfl | exact absurd rfl excludes
    rw [inner]
    refine (steps_iff_pieces one).trans (exists_congr fun taken => ?_)
    rw [all_visible_iff excludes, and_assoc]
    rfl

/-- At the start of a path, `**` consumes directories with a slash behind each. -/
theorem consumes_leadingDirectories (line : '\n' ∉ s) : (leadingDirectories usage).Consumes s t ↔
    ∃ taken, Apart '/' taken ∧ RunTakes usage taken ∧ s = trailed '/' taken ++ t := by
  by_cases excludes : usage = .exclude
  · subst excludes
    constructor
    · intro found
      rcases found with same | ⟨u, more, sep⟩
      · obtain rfl : t = s := same
        exact ⟨[], apart_nil, runTakes_nil, rfl⟩
      · obtain rfl := consumes_slash.mp sep
        obtain ⟨taken, _, filled, apart, whole⟩ := (consumes_anyParts line true).mp more
        exact ⟨taken, apart, filled, (List.cons.inj (whole.trans (led_append_cons taken t))).2⟩
    · intro found
      obtain ⟨taken, apart, filled, rfl⟩ := found
      cases taken with
      | nil => exact .inl rfl
      | cons part rest =>
        refine .inr ⟨'/' :: t, ?_, consumes_slash.mpr rfl⟩
        exact (consumes_anyParts line true).mpr ⟨part :: rest, by simp, filled, apart, (led_append_cons _ t).symm⟩
  · have one : ∀ s t, (Regex.group (.sequence [.char (.noneOf ['/', '.']), namePart, slash])).Consumes s t ↔
        ∃ part, IsVisible part ∧ s = part ++ ['/'] ++ t := by
      intro s t
      have cut : (Regex.group (.sequence [.char (.noneOf ['/', '.']), namePart, slash])).Consumes s t ↔
          ∃ u, visibleDirectory.Consumes s u ∧ slash.Consumes u t := by
        constructor
        · intro found
          obtain ⟨u, first, v, more, w, sep, done⟩ := found
          obtain rfl : t = w := done
          exact ⟨v, ⟨u, first, more⟩, sep⟩
        · intro found
          obtain ⟨v, ⟨u, first, more⟩, sep⟩ := found
          exact ⟨u, first, v, more, t, sep, rfl⟩
      rw [cut]
      constructor
      · intro found
        obtain ⟨u, more, sep⟩ := found
        obtain rfl := consumes_slash.mp sep
        obtain ⟨part, rfl, visible⟩ := consumes_visibleDirectory.mp more
        exact ⟨part, visible, by simp⟩
      · intro found
        obtain ⟨part, visible, rfl⟩ := found
        exact ⟨'/' :: t, consumes_visibleDirectory.mpr ⟨part, by simp, visible⟩, consumes_slash.mpr rfl⟩
    have leading : leadingDirectories usage =
        .repeated .zeroOrMore true (.group (.sequence [.char (.noneOf ['/', '.']), namePart, slash])) := by
      cases usage <;> first | rfl | exact absurd rfl excludes
    rw [leading]
    refine (steps_iff_pieces one).trans (exists_congr fun taken => ?_)
    rw [all_visible_iff excludes, and_assoc]
    rfl

end CompilerAdapter.Wildcard
