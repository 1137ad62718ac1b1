import CompilerAdapter.Proofs.Text.Parts
import CompilerAdapter.Wildcard.Pattern

/-!
# Selection by components

What a wildcard selects, said without regular expressions: `Takes` cuts the components of a path into pieces, one for
each component of the wildcard. A path is seen as its parts between slashes.
-/

namespace CompilerAdapter.Wildcard

/-- The components of a wildcard as seen from a base. -/
def components (base spec : String) : List (List Char) := (Path.components spec base).map String.toList

/-- Whether `*` may take a text in front of `after`. Among files, no point of it starts a `.min.js` that ends the path. -/
def StarTakes : Usage → List Char → List Char → Prop
  | .files, taken, after =>
    ∀ before rest, taken = before ++ '.' :: rest → '.' :: (rest ++ after) ≠ ".min.js".toList
  | _, _, _ => True

/-- The characters of a name take a part of a path, behind which `after` follows. A wildcard in first position takes a
point in first position only if `hidden` holds. -/
inductive NameTakes (usage : Usage) (after : List Char) : Bool → List Char → List Char → Prop where
  | nil {hidden : Bool} : NameTakes usage after hidden [] []
  | asterisk {hidden : Bool} {taken name rest : List Char} (star : StarTakes usage taken (rest ++ after))
      (first : hidden = false → taken.head? ≠ some '.') (later : NameTakes usage after true name rest) :
      NameTakes usage after hidden ('*' :: name) (taken ++ rest)
  | question {hidden : Bool} {c : Char} {name rest : List Char} (first : hidden = false → c ≠ '.')
      (later : NameTakes usage after true name rest) : NameTakes usage after hidden ('?' :: name) (c :: rest)
  | same {hidden : Bool} {c : Char} {name rest : List Char} (plain : c ≠ '*' ∧ c ≠ '?')
      (later : NameTakes usage after true name rest) : NameTakes usage after hidden (c :: name) (c :: rest)

/-- The directories that installed packages live in. -/
def packageNames : List (List Char) :=
  ["node_modules".toList, "bower_components".toList, "jspm_packages".toList]

/-- Whether a name has a wildcard in it. -/
def HasWildcard (name : List Char) : Prop := '*' ∈ name ∨ '?' ∈ name

/-- A component other than `**` takes one part. Unless it excludes, its wildcards take no hidden name and no package
directory. -/
def ComponentTakes (usage : Usage) (after name part : List Char) : Prop :=
  NameTakes usage after (usage == .exclude) name part ∧
    (usage ≠ .exclude → HasWildcard name → part ∉ packageNames)

/-- The directories that `**` takes: all but an empty one on its own if it excludes, else those that are neither empty
nor hidden. -/
def RunTakes : Usage → List (List Char) → Prop
  | .exclude, taken => taken ≠ [[]]
  | _, taken => ∀ part ∈ taken, part ≠ [] ∧ part.head? ≠ some '.'

/-- The parts of a path up to `rest` are cut into pieces that the components of a wildcard take one by one. -/
inductive Takes (usage : Usage) : List (List Char) → List (List Char) → List (List Char) → Prop where
  | nil {rest : List (List Char)} : Takes usage [] rest rest
  | directories {taken names parts rest : List (List Char)} (run : RunTakes usage taken)
      (later : Takes usage names parts rest) : Takes usage (['*', '*'] :: names) (taken ++ parts) rest
  | component {name part : List Char} {names parts rest : List (List Char)} (single : name ≠ ['*', '*'])
      (piece : ComponentTakes usage (led '/' parts) name part) (later : Takes usage names parts rest) :
      Takes usage (name :: names) (part :: parts) rest

/-- A directory is on the way to files if the first components of a wildcard take its parts. It may also end in a slash
behind directories that a leading `**` takes, or be empty. -/
def TakesDirectory (names parts : List (List Char)) : Prop :=
  (∃ front, front <+: names ∧ (∃ name ∈ front, name ≠ ['*', '*']) ∧ Takes .directories front parts []) ∨
    ∃ taken, (taken = [] ∨ names.head? = some ['*', '*']) ∧ RunTakes .directories taken ∧ parts = taken ++ [[]]

/-! ### What taking leaves -/

theorem starTakes_files_cons {c : Char} {taken after : List Char} :
    StarTakes .files (c :: taken) after ↔
      (c = '.' → taken ++ after ≠ "min.js".toList) ∧ StarTakes .files taken after := by
  constructor
  · intro star
    refine ⟨?_, ?_⟩
    · rintro rfl same
      exact star [] taken rfl (congrArg ('.' :: ·) same)
    · rintro before rest rfl
      exact star (c :: before) rest rfl
  · rintro ⟨first, later⟩ before rest cut
    cases before with
    | nil =>
      obtain ⟨rfl, rfl⟩ := List.cons.inj cut
      intro same
      exact first rfl (List.cons.inj same).2
    | cons b before =>
      obtain ⟨rfl, rfl⟩ := List.cons.inj cut
      exact later before rest rfl

@[simp] theorem starTakes_nil {usage : Usage} {after : List Char} : StarTakes usage [] after := by
  cases usage <;> simp [StarTakes]

theorem componentTakes_iff {usage : Usage} (including : usage ≠ .exclude) {after name part : List Char} :
    ComponentTakes usage after name part ↔
      NameTakes usage after false name part ∧ (HasWildcard name → part ∉ packageNames) := by
  rw [ComponentTakes, beq_eq_false_iff_ne.mpr including]
  simp [including]

@[simp] theorem runTakes_nil {usage : Usage} : RunTakes usage [] := by
  cases usage <;> simp [RunTakes]

theorem NameTakes.mem {usage : Usage} {after name part : List Char} {hidden : Bool}
    (takes : NameTakes usage after hidden name part) {c : Char} (plain : c ≠ '*' ∧ c ≠ '?') (h : c ∈ name) :
    c ∈ part := by
  induction takes with
  | nil => exact h
  | asterisk _ _ _ ih =>
    rw [List.mem_cons, or_iff_right plain.1] at h
    exact List.mem_append_right _ (ih h)
  | question _ _ ih =>
    rw [List.mem_cons, or_iff_right plain.2] at h
    exact List.mem_cons_of_mem _ (ih h)
  | same _ _ ih =>
    rcases List.mem_cons.mp h with rfl | h
    · exact List.mem_cons_self
    · exact List.mem_cons_of_mem _ (ih h)

/-- A name without wildcards takes only itself. -/
theorem NameTakes.eq_of_plain {usage : Usage} {after name part : List Char} {hidden : Bool}
    (takes : NameTakes usage after hidden name part) (plain : ¬ HasWildcard name) : part = name := by
  induction takes with
  | nil => rfl
  | asterisk _ _ _ _ => simp [HasWildcard] at plain
  | question _ _ _ => simp [HasWildcard] at plain
  | same _ _ ih =>
    simp only [HasWildcard, List.mem_cons, not_or] at plain
    rw [ih (by simp [HasWildcard, plain])]

/-- Where `*` may take any text, a name takes what it takes where `*` is held back. -/
theorem NameTakes.relax {usage usage' : Usage} {after after' name part : List Char} {hidden hidden' : Bool}
    (takes : NameTakes usage after hidden name part) (free : ∀ taken after, StarTakes usage' taken after)
    (start : hidden' = false → hidden = false) : NameTakes usage' after' hidden' name part := by
  induction takes generalizing hidden' with
  | nil => exact .nil
  | asterisk _ first _ ih => exact .asterisk (free _ _) (fun visible => first (start visible)) (ih id)
  | question first _ ih => exact .question (fun visible => first (start visible)) (ih id)
  | same plain _ ih => exact .same plain (ih id)

/-! ### What the components take -/

@[simp] theorem takes_nil {usage : Usage} {parts rest : List (List Char)} :
    Takes usage [] parts rest ↔ rest = parts := by
  constructor
  · intro found
    cases found
    rfl
  · rintro rfl
    exact .nil

theorem takes_directories {usage : Usage} {names parts rest : List (List Char)} :
    Takes usage (['*', '*'] :: names) parts rest ↔
      ∃ taken later, parts = taken ++ later ∧ RunTakes usage taken ∧ Takes usage names later rest := by
  constructor
  · intro takes
    cases takes with
    | directories run later => exact ⟨_, _, rfl, run, later⟩
    | component single _ _ => exact absurd rfl single
  · intro found
    obtain ⟨taken, later, rfl, run, takes⟩ := found
    exact .directories run takes

theorem takes_component {usage : Usage} {name : List Char} {names parts rest : List (List Char)}
    (single : name ≠ ['*', '*']) :
    Takes usage (name :: names) parts rest ↔
      ∃ part later, parts = part :: later ∧ ComponentTakes usage (led '/' later) name part ∧
        Takes usage names later rest := by
  constructor
  · intro takes
    cases takes with
    | directories _ _ => exact absurd rfl single
    | component _ piece later => exact ⟨_, _, rfl, piece, later⟩
  · intro found
    obtain ⟨part, later, rfl, piece, takes⟩ := found
    exact .component single piece takes

/-- What is left is the end of what was there. -/
theorem Takes.suffix {usage : Usage} {names parts rest : List (List Char)} (takes : Takes usage names parts rest) :
    rest <:+ parts := by
  induction takes with
  | nil => exact List.suffix_refl _
  | directories _ _ ih => exact ih.trans (List.suffix_append _ _)
  | component _ _ _ ih => exact ih.trans (List.suffix_cons _ _)

end CompilerAdapter.Wildcard
