import CompilerAdapter.Proofs.Regex.Consuming
import CompilerAdapter.Proofs.Wildcard.Selection

/-!
# What the expression for a component consumes

In a text of one line, the expression for a component consumes a name that the component takes: `consumes_component`.
-/

namespace CompilerAdapter.Wildcard
open Regex

variable {usage : Usage} {s t : List Char}

theorem consumes_slash : slash.Consumes s t ↔ s = '/' :: t := consumes_only

theorem consumes_nameChar : nameChar.Consumes s t ↔ ∃ c, s = c :: t ∧ c ≠ '/' := by
  constructor
  · intro found
    obtain ⟨c, rfl, pass⟩ := found
    exact ⟨c, rfl, by simpa using pass⟩
  · intro found
    obtain ⟨c, rfl, inside⟩ := found
    exact ⟨c, rfl, by simpa using inside⟩

theorem consumes_namePart : namePart.Consumes s t ↔ ∃ taken, s = taken ++ t ∧ '/' ∉ taken := by
  have clean : ∀ taken : List Char, (∀ c ∈ taken, Passes (.noneOf ['/']) c) ↔ '/' ∉ taken := by
    intro taken
    simp only [passes_noneOf, List.mem_singleton]
    exact ⟨fun all member => all _ member rfl, fun absent c member same => absent (same ▸ member)⟩
  exact consumes_many.trans (exists_congr fun taken => and_congr_right fun _ => clean taken)

/-! ### Asterisks -/

/-- The part of the expression for `*` among files that stands for one step. -/
theorem consumes_fileStep (line : '\n' ∉ s) :
    (Regex.group (.alt (.char (.noneOf ['.', '/'])) (.repeated .optional false (.group (.seq (.char (.only '.'))
      (.notAhead (.seq (.literal "min.js".toList) .finish))))))).Consumes s t ↔
      t = s ∨ ∃ c, s = c :: t ∧ c ≠ '/' ∧ (c = '.' → t ≠ "min.js".toList) := by
  constructor
  · intro found
    rcases found with ⟨c, rfl, pass⟩ | same | ⟨u, point, same, free⟩
    · simp only [CharTest.accepts] at pass
      have outside := passes_noneOf.mp pass
      simp only [List.mem_cons, List.not_mem_nil, or_false, not_or] at outside
      exact .inr ⟨c, rfl, outside.2, fun here => absurd here outside.1⟩
    · exact .inl same
    · have cut := consumes_only.mp point
      have same : t = u := same
      subst same cut
      refine .inr ⟨'.', rfl, by decide, fun _ ended => ?_⟩
      exact free [] ⟨[], consumes_literal.mpr (by simpa using ended), rfl, .inl rfl⟩
  · intro found
    rcases found with same | ⟨c, rfl, inside, free⟩
    · exact .inr (.inl same)
    · by_cases point : c = '.'
      · subst point
        refine .inr (.inr ⟨t, consumes_only.mpr rfl, rfl, ?_⟩)
        rintro u ⟨v, word, _, ended⟩
        have cut := consumes_literal.mp word
        rcases ended with rfl | rfl
        · exact free rfl (by simpa using cut)
        · simp [cut] at line
      · exact .inl ⟨c, rfl, passes_noneOf.mpr (by simp [point, inside])⟩

theorem consumes_asterisk (line : '\n' ∉ s) :
    (asterisk usage).Consumes s t ↔ ∃ taken, s = taken ++ t ∧ '/' ∉ taken ∧ StarTakes usage taken t := by
  cases usage with
  | files =>
    constructor
    · intro steps
      change Steps _ s t at steps
      induction steps with
      | refl => exact ⟨[], rfl, by simp, starTakes_nil⟩
      | cons one _ ih =>
        rcases (consumes_fileStep line).mp one with rfl | ⟨c, rfl, inside, free⟩
        · exact ih line
        · rw [List.mem_cons, not_or] at line
          obtain ⟨taken, rfl, clean, star⟩ := ih line.2
          refine ⟨c :: taken, rfl, ?_, starTakes_files_cons.mpr ⟨free, star⟩⟩
          rw [List.mem_cons, not_or]
          exact ⟨inside.symm, clean⟩
    · intro found
      obtain ⟨taken, rfl, clean, star⟩ := found
      change Steps _ _ t
      induction taken with
      | nil => exact .refl t
      | cons c rest ih =>
        rw [List.mem_cons, not_or] at clean
        obtain ⟨free, star⟩ := starTakes_files_cons.mp star
        have line' : '\n' ∉ rest ++ t := fun member => line (List.mem_cons_of_mem _ member)
        exact .cons ((consumes_fileStep line).mpr (.inr ⟨c, rfl, Ne.symm clean.1, free⟩)) (ih line' clean.2 star)
  | directories => simpa [asterisk, StarTakes] using consumes_namePart
  | exclude => simpa [asterisk, StarTakes] using consumes_namePart

/-- A point matters to `*` only where it stands in the text that is taken. -/
theorem starTakes_cons_of_ne {c : Char} {taken after : List Char} (different : c ≠ '.') :
    StarTakes usage (c :: taken) after ↔ StarTakes usage taken after := by
  cases usage with
  | files => simp [starTakes_files_cons, different]
  | directories => simp [StarTakes]
  | exclude => simp [StarTakes]

/-! ### Characters -/

theorem consumes_characters {name : List Char} (clean : '/' ∉ name) (line : '\n' ∉ s) :
    (characters usage name).Consumes s t ↔
      ∃ part, s = part ++ t ∧ '/' ∉ part ∧ NameTakes usage t true name part := by
  induction name generalizing s with
  | nil =>
    constructor
    · rintro rfl
      exact ⟨[], rfl, by simp, .nil⟩
    · intro found
      obtain ⟨part, rfl, _, takes⟩ := found
      cases takes
      rfl
  | cons c name ih =>
    rw [List.mem_cons, not_or] at clean
    have later : ∀ {u : List Char}, '\n' ∉ u → ((characters usage name).Consumes u t ↔
        ∃ part, u = part ++ t ∧ '/' ∉ part ∧ NameTakes usage t true name part) := ih clean.2
    constructor
    · intro found
      obtain ⟨u, first, more⟩ := found
      split at first
      · subst c
        obtain ⟨taken, rfl, inside, star⟩ := (consumes_asterisk line).mp first
        obtain ⟨part, rfl, outside, takes⟩ := (later fun member => line (List.mem_append_right _ member)).mp more
        exact ⟨taken ++ part, by simp, by simp [inside, outside], .asterisk star nofun takes⟩
      · rename_i noStar
        split at first
        · subst c
          obtain ⟨x, rfl, inside⟩ := consumes_nameChar.mp first
          obtain ⟨part, rfl, outside, takes⟩ := (later fun member => line (List.mem_cons_of_mem _ member)).mp more
          exact ⟨x :: part, rfl, by simp [Ne.symm inside, outside], .question nofun takes⟩
        · rename_i noMark
          obtain rfl := consumes_only.mp first
          obtain ⟨part, rfl, outside, takes⟩ := (later fun member => line (List.mem_cons_of_mem _ member)).mp more
          exact ⟨c :: part, rfl, by simp [clean.1, outside], .same ⟨noStar, noMark⟩ takes⟩
    · intro found
      obtain ⟨part, rfl, inside, takes⟩ := found
      cases takes with
      | @asterisk _ taken _ rest star _ takes =>
        rw [List.mem_append, not_or] at inside
        rw [List.append_assoc] at line ⊢
        refine ⟨rest ++ t, (consumes_asterisk line).mpr ⟨taken, rfl, inside.1, star⟩, ?_⟩
        exact (later fun member => line (List.mem_append_right _ member)).mpr ⟨rest, rfl, inside.2, takes⟩
      | @question _ x _ rest _ takes =>
        rw [List.mem_cons, not_or] at inside
        refine ⟨rest ++ t, consumes_nameChar.mpr ⟨x, rfl, Ne.symm inside.1⟩, ?_⟩
        exact (later fun member => line (List.mem_cons_of_mem _ member)).mpr ⟨rest, rfl, inside.2, takes⟩
      | @same _ _ _ rest plain takes =>
        rw [List.mem_cons, not_or] at inside
        refine ⟨rest ++ t, ?_, ?_⟩
        · rw [if_neg plain.1, if_neg plain.2]
          exact consumes_only.mpr rfl
        · exact (later fun member => line (List.mem_cons_of_mem _ member)).mpr ⟨rest, rfl, inside.2, takes⟩

/-- A name that no wildcard starts takes the same whether or not wildcards may take a point first. -/
theorem NameTakes.of_plain_start {after name part : List Char} {hidden hidden' : Bool}
    (star : ∀ rest, name ≠ '*' :: rest) (mark : ∀ rest, name ≠ '?' :: rest)
    (takes : NameTakes usage after hidden name part) : NameTakes usage after hidden' name part := by
  cases takes with
  | nil => exact .nil
  | asterisk _ _ _ => exact absurd rfl (star _)
  | question _ _ => exact absurd rfl (mark _)
  | same plain later => exact .same plain later

theorem consumes_visibleChar : (Regex.char (.noneOf ['.', '/'])).Consumes s t ↔ ∃ c, s = c :: t ∧ c ≠ '.' ∧ '/' ≠ c := by
  constructor
  · intro found
    obtain ⟨c, rfl, pass⟩ := found
    have visible := passes_noneOf.mp pass
    simp only [List.mem_cons, List.not_mem_nil, or_false, not_or] at visible
    exact ⟨c, rfl, visible.1, Ne.symm visible.2⟩
  · intro found
    obtain ⟨c, rfl, visible, inside⟩ := found
    exact ⟨c, rfl, passes_noneOf.mpr (by simp [visible, Ne.symm inside])⟩

/-- A `*` in first position. -/
theorem consumes_firstAsterisk (line : '\n' ∉ s) :
    (Regex.repeated .optional false (.group (.seq (.char (.noneOf ['.', '/'])) (asterisk usage)))).Consumes s t ↔
      ∃ taken, s = taken ++ t ∧ '/' ∉ taken ∧ StarTakes usage taken t ∧ taken.head? ≠ some '.' := by
  constructor
  · intro found
    rcases found with same | ⟨u, first, later⟩
    · have same : t = s := same
      exact ⟨[], same.symm, by simp, starTakes_nil, by simp⟩
    · obtain ⟨c, rfl, visible, outside⟩ := consumes_visibleChar.mp first
      rw [List.mem_cons, not_or] at line
      obtain ⟨taken, rfl, inside, star⟩ := (consumes_asterisk line.2).mp later
      exact ⟨c :: taken, rfl, by simp [outside, inside], (starTakes_cons_of_ne visible).mpr star, by simpa using visible⟩
  · intro found
    obtain ⟨taken, rfl, inside, star, first⟩ := found
    cases taken with
    | nil => exact .inl rfl
    | cons c taken =>
      have visible : c ≠ '.' := by simpa using first
      rw [List.mem_cons, not_or] at inside
      rw [List.cons_append, List.mem_cons, not_or] at line
      refine .inr ⟨taken ++ t, consumes_visibleChar.mpr ⟨c, rfl, visible, inside.1⟩, ?_⟩
      exact (consumes_asterisk line.2).mpr ⟨taken, rfl, inside.2, (starTakes_cons_of_ne visible).mp star⟩

theorem consumes_visibleCharacters {name : List Char} (clean : '/' ∉ name) (line : '\n' ∉ s) :
    (visibleCharacters usage name).Consumes s t ↔
      ∃ part, s = part ++ t ∧ '/' ∉ part ∧ NameTakes usage t false name part := by
  fun_cases visibleCharacters usage name with
  | case1 rest =>
    rw [List.mem_cons, not_or] at clean
    constructor
    · intro found
      obtain ⟨u, first, more⟩ := found
      obtain ⟨taken, rfl, inside, star, visible⟩ := (consumes_firstAsterisk line).mp first
      have line' : '\n' ∉ u := fun member => line (List.mem_append_right _ member)
      obtain ⟨part, rfl, outside, takes⟩ := (consumes_characters clean.2 line').mp more
      exact ⟨taken ++ part, by simp, by simp [inside, outside], .asterisk star (fun _ => visible) takes⟩
    · intro found
      obtain ⟨part, rfl, inside, takes⟩ := found
      cases takes with
      | @asterisk _ taken _ rest' star first takes =>
        rw [List.mem_append, not_or] at inside
        rw [List.append_assoc] at line ⊢
        have line' : '\n' ∉ rest' ++ t := fun member => line (List.mem_append_right _ member)
        refine ⟨rest' ++ t, (consumes_firstAsterisk line).mpr ⟨taken, rfl, inside.1, star, first rfl⟩, ?_⟩
        exact (consumes_characters clean.2 line').mpr ⟨rest', rfl, inside.2, takes⟩
      | same plain _ => exact absurd rfl plain.1
  | case2 rest =>
    rw [List.mem_cons, not_or] at clean
    constructor
    · intro found
      obtain ⟨u, first, more⟩ := found
      obtain ⟨c, rfl, visible, inside⟩ := consumes_visibleChar.mp first
      rw [List.mem_cons, not_or] at line
      obtain ⟨part, rfl, outside, takes⟩ := (consumes_characters clean.2 line.2).mp more
      exact ⟨c :: part, rfl, by simp [inside, outside], .question (fun _ => visible) takes⟩
    · intro found
      obtain ⟨part, rfl, inside, takes⟩ := found
      cases takes with
      | @question _ c _ rest' first takes =>
        rw [List.mem_cons, not_or] at inside
        rw [List.cons_append, List.mem_cons, not_or] at line
        refine ⟨rest' ++ t, consumes_visibleChar.mpr ⟨c, rfl, first rfl, inside.1⟩, ?_⟩
        exact (consumes_characters clean.2 line.2).mpr ⟨rest', rfl, inside.2, takes⟩
      | same plain _ => exact absurd rfl plain.2
  | case3 _ star mark =>
    rw [consumes_characters clean line]
    refine exists_congr fun part => and_congr_right fun _ => and_congr_right fun _ => ?_
    exact ⟨.of_plain_start star mark, .of_plain_start star mark⟩

/-! ### Package directories -/

theorem consumes_packageDirectory : packageDirectory.Consumes s t ↔ ∃ name ∈ packageNames, s = name ++ t := by
  simp only [packageNames, List.mem_cons, List.not_mem_nil, or_false, exists_eq_or_imp, exists_eq_left]
  exact or_congr consumes_literal (or_congr consumes_literal consumes_literal)

theorem packageName_plain {name : List Char} (package : name ∈ packageNames) :
    '/' ∉ name ∧ name.any isReserved = false := by
  simp only [packageNames, List.mem_cons, List.not_mem_nil, or_false] at package
  rcases package with rfl | rfl | rfl <;> decide

/-- The guard against package directories consumes nothing, and looks at the first part of the text. -/
theorem consumes_noPackageDirectory {part : List Char} {parts : List (List Char)} (clean : Apart '/' (part :: parts))
    (line : '\n' ∉ part ++ led '/' parts) :
    noPackageDirectory.Consumes (part ++ led '/' parts) t ↔ t = part ++ led '/' parts ∧ part ∉ packageNames := by
  refine and_congr_right fun _ => ⟨?_, ?_⟩
  · intro free package
    have word : packageDirectory.Consumes (part ++ led '/' parts) (led '/' parts) :=
      consumes_packageDirectory.mpr ⟨part, package, rfl⟩
    have boundary : led '/' parts = [] ∨ ∃ u, led '/' parts = '/' :: u := led_boundary parts
    rcases boundary with ended | ⟨u, goes⟩
    · exact free _ ⟨led '/' parts, word, .inr ⟨rfl, .inl ended⟩⟩
    · exact free u ⟨led '/' parts, word, .inl (consumes_slash.mpr goes)⟩
  · rintro absent u ⟨v, word, closing⟩
    obtain ⟨name, package, cut⟩ := consumes_packageDirectory.mp word
    have boundary : v = [] ∨ ∃ w, v = '/' :: w := by
      rcases closing with sep | ⟨_, ended | ended⟩
      · exact .inr ⟨u, consumes_slash.mp sep⟩
      · exact .inl ended
      · rw [cut, ended] at line
        simp at line
    obtain ⟨others, apart, rfl⟩ := exists_led_of_boundary boundary
    have same := append_led_inj clean (apart_cons.mpr ⟨(packageName_plain package).1, apart⟩) cut
    exact absent (same.1 ▸ package)

/-! ### Components -/

theorem reserved_of_wildcard {name : List Char} (wild : HasWildcard name) : name.any isReserved = true := by
  rw [List.any_eq_true]
  rcases wild with member | member
  · exact ⟨'*', member, by decide⟩
  · exact ⟨'?', member, by decide⟩

/-- The guard stands in front of every name with a reserved character, but only wildcards need it. -/
theorem not_package_iff {usage : Usage} {after name part : List Char} {hidden : Bool}
    (takes : NameTakes usage after hidden name part) :
    (name.any isReserved = true → part ∉ packageNames) ↔ (HasWildcard name → part ∉ packageNames) := by
  constructor
  · exact fun guarded wild => guarded (reserved_of_wildcard wild)
  · intro guarded reserved package
    by_cases wild : HasWildcard name
    · exact guarded wild package
    · have same := takes.eq_of_plain wild
      rw [← same, (packageName_plain package).2] at reserved
      exact Bool.false_ne_true reserved

theorem consumes_component {name : List Char} {parts : List (List Char)} (clean : '/' ∉ name)
    (apart : Apart '/' parts) (line : '\n' ∉ s) :
    (component usage name).Consumes s (led '/' parts) ↔
      ∃ part, s = part ++ led '/' parts ∧ '/' ∉ part ∧ ComponentTakes usage (led '/' parts) name part := by
  by_cases excludes : usage = .exclude
  · subst excludes
    simpa [component, ComponentTakes] using consumes_characters clean line
  have visible : (component usage name).Consumes s (led '/' parts) ↔
      (name.any isReserved = true → noPackageDirectory.Consumes s s) ∧
        (visibleCharacters usage name).Consumes s (led '/' parts) := by
    have unfolded : component usage name = if name.any isReserved then
        .seq noPackageDirectory (visibleCharacters usage name) else visibleCharacters usage name := by
      cases usage <;> first | rfl | exact absurd rfl excludes
    rw [unfolded]
    split
    · rename_i reserved
      constructor
      · intro found
        obtain ⟨u, guarded, later⟩ := found
        obtain rfl := guarded.1
        exact ⟨fun _ => guarded, later⟩
      · intro found
        obtain ⟨guarded, later⟩ := found
        exact ⟨s, guarded reserved, later⟩
    · rename_i free
      simp [free]
  simp only [visible, consumes_visibleCharacters clean line, componentTakes_iff excludes]
  constructor
  · intro found
    obtain ⟨guarded, part, rfl, inside, takes⟩ := found
    refine ⟨part, rfl, inside, takes, (not_package_iff takes).mp fun reserved => ?_⟩
    exact ((consumes_noPackageDirectory (apart_cons.mpr ⟨inside, apart⟩) line).mp (guarded reserved)).2
  · intro found
    obtain ⟨part, rfl, inside, takes, guarded⟩ := found
    refine ⟨fun reserved => ?_, part, rfl, inside, takes⟩
    refine (consumes_noPackageDirectory (apart_cons.mpr ⟨inside, apart⟩) line).mpr ⟨rfl, ?_⟩
    exact (not_package_iff takes).mpr guarded reserved

end CompilerAdapter.Wildcard
