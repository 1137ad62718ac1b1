import CompilerAdapter.Proofs.Wildcard.Runs

/-!
# Wildcards and the components of a path

The expression for the components of a wildcard consumes what they take. Behind a component, the text that is left is
led by slashes (`aligned_names`); at the start of a path it is not (`consumes_path`).
-/

namespace CompilerAdapter.Wildcard
open Regex

variable {usage : Usage} {written recursive : Bool} {names : List (List Char)} {r : Regex} {s t : List Char}

/-! ### The expression, component by component -/

/-- The expression for `**`, by whether a component stands in front of it and whether one follows. -/
def directoriesRegex (usage : Usage) (written : Bool) (names : List (List Char)) : Regex :=
  if written then innerDirectories usage else if names.isEmpty then everything else leadingDirectories usage

theorem namesRegex?_directories (h : namesRegex? usage written recursive (['*', '*'] :: names) = some r) :
    recursive = false ∧ ∃ tail, namesRegex? usage written true names = some tail ∧
      r = .seq (directoriesRegex usage written names) tail := by
  rw [namesRegex?, if_pos rfl] at h
  cases recursive with
  | true => simp at h
  | false =>
    obtain ⟨tail, later, rfl⟩ := Option.map_eq_some_iff.mp h
    exact ⟨rfl, tail, later, rfl⟩

theorem next_ne_of_namesRegex? {name : List Char}
    (h : namesRegex? usage written recursive (['*', '*'] :: name :: names) = some r) : name ≠ ['*', '*'] := by
  obtain ⟨_, tail, later, _⟩ := namesRegex?_directories h
  intro star
  subst star
  exact Bool.noConfusion (namesRegex?_directories later).1

theorem consumes_directories (line : '\n' ∉ s) : (directoriesRegex usage true names).Consumes s t ↔
    ∃ taken, Apart '/' taken ∧ RunTakes usage taken ∧ s = led '/' taken ++ t :=
  consumes_innerDirectories line

/-- A component with a slash in front, unless it is the first. -/
def pieceRegex (usage : Usage) (written : Bool) (name : List Char) : Regex :=
  if written then .seq slash (component usage name) else component usage name

/-- The expression for a component and those behind it: among directories it need not match. -/
def chainRegex (usage : Usage) (first later : Regex) : Regex :=
  if usage = .directories then .repeated .optional false (.group (.seq first later)) else .seq first later

theorem namesRegex?_component {name : List Char} (single : name ≠ ['*', '*'])
    (h : namesRegex? usage written recursive (name :: names) = some r) :
    ∃ tail, namesRegex? usage true recursive names = some tail ∧
      r = chainRegex usage (pieceRegex usage written name) tail := by
  rw [namesRegex?, if_neg single] at h
  obtain ⟨tail, later, rfl⟩ := Option.map_eq_some_iff.mp h
  exact ⟨tail, later, rfl⟩

/-- What the pieces have, and sequences and options of what has it, the expression for the components has. -/
theorem property_of_names {P : Regex → Prop} (empty : P .empty)
    (sequence : ∀ first later, P first → P later → P (.seq first later))
    (option : ∀ inner, P inner → P (.repeated .optional false (.group inner))) (slash : P slash)
    (inner : P (innerDirectories usage)) (all : P everything) (leading : P (leadingDirectories usage))
    (component : ∀ name, P (component usage name)) (h : namesRegex? usage written recursive names = some r) : P r := by
  induction names generalizing written recursive r with
  | nil =>
    obtain rfl := Option.some.inj h
    exact empty
  | cons name names ih =>
    by_cases run : name = ['*', '*']
    · subst run
      obtain ⟨_, tail, later, rfl⟩ := namesRegex?_directories h
      refine sequence _ _ ?_ (ih later)
      unfold directoriesRegex
      split
      · exact inner
      · split
        · exact all
        · exact leading
    · obtain ⟨tail, later, rfl⟩ := namesRegex?_component run h
      have piece : P (pieceRegex usage written name) := by
        unfold pieceRegex
        split
        · exact sequence _ _ slash (component name)
        · exact component name
      have chain := sequence _ _ piece (ih later)
      unfold chainRegex
      split
      · exact option _ chain
      · exact chain

theorem consumes_chain {first later : Regex} : (chainRegex usage first later).Consumes s t ↔
    (usage = .directories ∧ t = s) ∨ ∃ u, first.Consumes s u ∧ later.Consumes u t := by
  unfold chainRegex
  split
  · rename_i stops
    simp only [stops, true_and]
    rfl
  · rename_i goes
    simp only [goes, false_and, false_or]
    rfl

/-- The components that a match accounts for: all of them, or among directories the first ones. -/
def Covers (usage : Usage) (front names : List (List Char)) : Prop :=
  if usage = .directories then front <+: names else front = names

theorem covers_nil {front : List (List Char)} : Covers usage front [] ↔ front = [] := by
  unfold Covers
  split <;> simp

theorem covers_cons {front : List (List Char)} {name : List Char} : Covers usage front (name :: names) ↔
    (usage = .directories ∧ front = []) ∨ ∃ later, front = name :: later ∧ Covers usage later names := by
  unfold Covers
  split
  · rename_i stops
    simp [stops, List.prefix_cons_iff]
  · rename_i goes
    simp [goes]

/-! ### Behind a component -/

/-- An expression for components behind another one starts at a slash or at the end of the text if it ends at one. -/
theorem boundary_of_consumes (h : namesRegex? usage true recursive names = some r) (line : '\n' ∉ s)
    (consumed : r.Consumes s t) (boundary : t = [] ∨ ∃ u, t = '/' :: u) : s = [] ∨ ∃ u, s = '/' :: u := by
  induction names generalizing recursive r s with
  | nil =>
    obtain rfl := Option.some.inj h
    obtain rfl : t = s := consumed
    exact boundary
  | cons name names ih =>
    by_cases star : name = ['*', '*']
    · subst star
      obtain ⟨_, tail, later, rfl⟩ := namesRegex?_directories h
      obtain ⟨u, inner, more⟩ := consumed
      obtain ⟨taken, _, _, rfl⟩ := (consumes_directories line).mp inner
      cases taken with
      | nil => exact ih later line more
      | cons part rest => exact .inr ⟨part ++ led '/' rest ++ u, by simp⟩
    · obtain ⟨tail, _, rfl⟩ := namesRegex?_component star h
      rcases consumes_chain.mp consumed with ⟨_, rfl⟩ | ⟨u, ⟨v, sep, _⟩, _⟩
      · exact boundary
      · exact .inr ⟨v, consumes_slash.mp sep⟩

/-- An expression consumes the parts that components take, up to `rest`. -/
def Aligned (usage : Usage) (r : Regex) (names rest : List (List Char)) : Prop :=
  ∀ parts, Apart '/' parts → '\n' ∉ led '/' parts →
    (r.Consumes (led '/' parts) (led '/' rest) ↔ ∃ front, Covers usage front names ∧ Takes usage front parts rest)

variable {rest : List (List Char)} {tail : Regex}

theorem aligned_nil (apart : Apart '/' rest) : Aligned usage .empty [] rest := by
  intro parts clean _
  simp only [covers_nil, exists_eq_left, takes_nil]
  exact ⟨fun same => led_inj apart clean same, fun same => congrArg (led '/') same⟩

theorem aligned_directories (later : namesRegex? usage true recursive names = some tail)
    (aligned : Aligned usage tail names rest) :
    Aligned usage (.seq (directoriesRegex usage true names) tail) (['*', '*'] :: names) rest := by
  intro parts apart line
  constructor
  · intro found
    obtain ⟨u, inner, more⟩ := found
    obtain ⟨taken, cut, run, whole⟩ := (consumes_directories line).mp inner
    have line' : '\n' ∉ u := fun member => line (whole ▸ List.mem_append_right _ member)
    obtain ⟨others, apart', rfl⟩ := exists_led_of_boundary (boundary_of_consumes later line' more (led_boundary rest))
    obtain rfl := led_inj apart (apart_append.mpr ⟨cut, apart'⟩) (by simpa using whole)
    obtain ⟨front, covers, takes⟩ := (aligned others apart' line').mp more
    exact ⟨['*', '*'] :: front, covers_cons.mpr (.inr ⟨front, rfl, covers⟩), .directories run takes⟩
  · intro found
    obtain ⟨front, covers, takes⟩ := found
    rcases covers_cons.mp covers with ⟨rfl, rfl⟩ | ⟨front, rfl, covered⟩
    · obtain rfl := takes_nil.mp takes
      refine ⟨led '/' rest, (consumes_directories line).mpr ⟨[], apart_nil, runTakes_nil, rfl⟩, ?_⟩
      exact (aligned rest apart line).mpr ⟨[], List.nil_prefix, .nil⟩
    · obtain ⟨taken, others, rfl, run, takes⟩ := takes_directories.mp takes
      rw [apart_append] at apart
      rw [led_append] at line ⊢
      refine ⟨led '/' others, (consumes_directories line).mpr ⟨taken, apart.1, run, rfl⟩, ?_⟩
      exact (aligned others apart.2 fun member => line (List.mem_append_right _ member)).mpr ⟨front, covered, takes⟩

theorem aligned_component {name : List Char} (single : name ≠ ['*', '*']) (clean : '/' ∉ name) (apart' : Apart '/' rest)
    (later : namesRegex? usage true recursive names = some tail) (aligned : Aligned usage tail names rest) :
    Aligned usage (chainRegex usage (pieceRegex usage true name) tail) (name :: names) rest := by
  intro parts apart line
  rw [consumes_chain]
  constructor
  · intro found
    rcases found with ⟨rfl, same⟩ | ⟨u, ⟨v, sep, one⟩, more⟩
    · exact ⟨[], List.nil_prefix, takes_nil.mpr (led_inj apart' apart same)⟩
    · obtain ⟨part, others, rfl, rfl⟩ := led_eq_cons (consumes_slash.mp sep)
      rw [apart_cons] at apart
      have line' : '\n' ∉ part ++ led '/' others := fun member => line (List.mem_cons_of_mem _ member)
      have line'' : '\n' ∉ u := fun member => line' ((suffix_of_matches _ one).subset member)
      obtain ⟨others', apart'', rfl⟩ := exists_led_of_boundary
        (boundary_of_consumes later line'' more (led_boundary rest))
      obtain ⟨part', whole, inside, piece⟩ := (consumes_component clean apart'' line').mp one
      obtain ⟨rfl, rfl⟩ := append_led_inj (apart_cons.mpr apart) (apart_cons.mpr ⟨inside, apart''⟩) whole
      obtain ⟨front, covers, takes⟩ := (aligned others apart'' line'').mp more
      exact ⟨name :: front, covers_cons.mpr (.inr ⟨front, rfl, covers⟩), .component single piece takes⟩
  · intro found
    obtain ⟨front, covers, takes⟩ := found
    rcases covers_cons.mp covers with ⟨stops, rfl⟩ | ⟨front, rfl, covered⟩
    · exact .inl ⟨stops, congrArg (led '/') (takes_nil.mp takes)⟩
    · obtain ⟨part, others, rfl, piece, takes⟩ := (takes_component single).mp takes
      rw [apart_cons] at apart
      have line' : '\n' ∉ part ++ led '/' others := fun member => line (List.mem_cons_of_mem _ member)
      refine .inr ⟨led '/' others, ⟨part ++ led '/' others, consumes_slash.mpr rfl, ?_⟩, ?_⟩
      · exact (consumes_component clean apart.2 line').mpr ⟨part, rfl, apart.1, piece⟩
      · exact (aligned others apart.2 fun member => line' (List.mem_append_right _ member)).mpr ⟨front, covered, takes⟩

theorem aligned_names (h : namesRegex? usage true recursive names = some r) (clean : Apart '/' names)
    (apart : Apart '/' rest) : Aligned usage r names rest := by
  induction names generalizing recursive r with
  | nil =>
    obtain rfl := Option.some.inj h
    exact aligned_nil apart
  | cons name names ih =>
    rw [apart_cons] at clean
    by_cases star : name = ['*', '*']
    · subst star
      obtain ⟨_, tail, later, rfl⟩ := namesRegex?_directories h
      exact aligned_directories later (ih later clean.2)
    · obtain ⟨tail, later, rfl⟩ := namesRegex?_component star h
      exact aligned_component star clean.1 apart later (ih later clean.2)

/-! ### At the start of a path -/

theorem consumes_first {name : List Char} (single : name ≠ ['*', '*'])
    (h : namesRegex? usage false recursive (name :: names) = some r) (clean : Apart '/' (name :: names))
    {rest : List (List Char)} (apart : Apart '/' rest) (line : '\n' ∉ s) :
    r.Consumes s (led '/' rest) ↔ (usage = .directories ∧ s = led '/' rest) ∨
      ∃ front, Covers usage front names ∧ Takes usage (name :: front) (splitAtEach '/' s) rest := by
  obtain ⟨tail, later, rfl⟩ := namesRegex?_component single h
  rw [apart_cons] at clean
  rw [consumes_chain]
  refine or_congr (and_congr_right fun _ => eq_comm) ⟨?_, ?_⟩
  · intro found
    obtain ⟨u, one, more⟩ := found
    have line' : '\n' ∉ u := fun member => line ((suffix_of_matches _ one).subset member)
    obtain ⟨others, apart', rfl⟩ := exists_led_of_boundary (boundary_of_consumes later line' more (led_boundary rest))
    obtain ⟨part, rfl, inside, piece⟩ := (consumes_component clean.1 apart' line).mp one
    obtain ⟨front, covers, takes⟩ := (aligned_names later clean.2 apart others apart' line').mp more
    rw [splitAtEach_led (apart_cons.mpr ⟨inside, apart'⟩)]
    exact ⟨front, covers, .component single piece takes⟩
  · intro found
    obtain ⟨front, covers, takes⟩ := found
    obtain ⟨part, others, parted, apart', rfl⟩ : ∃ part others, splitAtEach '/' s = part :: others ∧
      Apart '/' (part :: others) ∧ s = part ++ led '/' others := exists_led s
    rw [parted] at takes
    rw [apart_cons] at apart'
    obtain ⟨_, _, same, piece, takes⟩ := (takes_component single).mp takes
    obtain ⟨rfl, rfl⟩ := List.cons.inj same
    refine ⟨led '/' others, (consumes_component clean.1 apart'.2 line).mpr ⟨part, rfl, apart'.1, piece⟩, ?_⟩
    have line' : '\n' ∉ led '/' others := fun member => line (List.mem_append_right _ member)
    exact (aligned_names later clean.2 apart others apart'.2 line').mpr ⟨front, covers, takes⟩

theorem consumes_leading {name : List Char} (h : namesRegex? usage false false (['*', '*'] :: name :: names) = some r)
    (clean : Apart '/' (name :: names)) {rest : List (List Char)} (apart : Apart '/' rest) (line : '\n' ∉ s) :
    r.Consumes s (led '/' rest) ↔
      (usage = .directories ∧ ∃ taken, Apart '/' taken ∧ RunTakes usage taken ∧ s = trailed '/' taken ++ led '/' rest) ∨
      ∃ front, Covers usage front names ∧ Takes usage (['*', '*'] :: name :: front) (splitAtEach '/' s) rest := by
  have single := next_ne_of_namesRegex? h
  obtain ⟨_, tail, later, rfl⟩ := namesRegex?_directories h
  have leading : directoriesRegex usage false (name :: names) = leadingDirectories usage := rfl
  constructor
  · intro found
    obtain ⟨u, inner, more⟩ := found
    rw [leading] at inner
    obtain ⟨taken, cut, run, rfl⟩ := (consumes_leadingDirectories line).mp inner
    have line' : '\n' ∉ u := fun member => line (List.mem_append_right _ member)
    rcases (consumes_first single later clean apart line').mp more with ⟨stops, rfl⟩ | ⟨front, covers, takes⟩
    · exact .inl ⟨stops, taken, cut, run, rfl⟩
    · rw [splitAtEach_trailed cut]
      exact .inr ⟨front, covers, .directories run takes⟩
  · intro found
    rcases found with ⟨stops, taken, cut, run, rfl⟩ | ⟨front, covers, takes⟩
    · refine ⟨led '/' rest, ?_, ?_⟩
      · rw [leading]
        exact (consumes_leadingDirectories line).mpr ⟨taken, cut, run, rfl⟩
      · exact (consumes_first single later clean apart fun member => line (List.mem_append_right _ member)).mpr
          (.inl ⟨stops, rfl⟩)
    · obtain ⟨taken, others, parted, run, takes⟩ := takes_directories.mp takes
      obtain ⟨part, more, rfl, _, _⟩ := (takes_component single).mp takes
      have cut : Apart '/' (taken ++ part :: more) := parted ▸ apart_splitAtEach s
      rw [apart_append] at cut
      have whole : s = trailed '/' taken ++ (part ++ led '/' more) := by
        have leads : '/' :: s = led '/' (taken ++ part :: more) := parted ▸ (led_splitAtEach s).symm
        rw [led_append, led_cons, led_append_cons] at leads
        exact (List.cons.inj leads).2
      subst whole
      have line' : '\n' ∉ part ++ led '/' more := fun member => line (List.mem_append_right _ member)
      refine ⟨part ++ led '/' more, ?_, ?_⟩
      · rw [leading]
        exact (consumes_leadingDirectories line).mpr ⟨taken, cut.1, run, rfl⟩
      · refine (consumes_first single later clean apart line').mpr (.inr ⟨front, covers, ?_⟩)
        rwa [splitAtEach_led cut.2]

/-- An expression that has to match all components consumes the parts of a path that they take. -/
theorem consumes_path (entire : usage ≠ .directories) (h : namesRegex? usage false false names = some r)
    (filled : names ≠ []) (single : names ≠ [['*', '*']]) (clean : Apart '/' names) {rest : List (List Char)}
    (apart : Apart '/' rest) (line : '\n' ∉ s) :
    r.Consumes s (led '/' rest) ↔ Takes usage names (splitAtEach '/' s) rest := by
  have covers : ∀ {front names : List (List Char)}, Covers usage front names ↔ front = names := by
    intro front names
    rw [Covers, if_neg entire]
  cases names with
  | nil => exact absurd rfl filled
  | cons name names =>
    by_cases star : name = ['*', '*']
    · subst star
      cases names with
      | nil => exact absurd rfl single
      | cons next names =>
        rw [consumes_leading h (apart_cons.mp clean).2 apart line]
        simp [entire, covers]
    · rw [consumes_first star h clean apart line]
      simp [entire, covers]

end CompilerAdapter.Wildcard
