import CompilerAdapter.Proofs.Path.Resolution

/-!
# Normal forms of paths

Below its root a path has names, in front of which the ways up stand: `components_shape`. The text that the components
make with slashes between them has the same components: `components_text`.
-/

namespace CompilerAdapter.Path

variable {names parts : List (List Char)} {name path rest : List Char}

/-- Whether an entry stands at the start of a list or nowhere, as often as it comes up. -/
def OnlyInFront {α : Type} (entry : α) (entries : List α) : Prop :=
  ∃ n others, entries = List.replicate n entry ++ others ∧ entry ∉ others

/-! ### Ways up -/

theorem push_replicate_parent (n : Nat) : push (List.replicate n parent) parent = List.replicate (n + 1) parent := by
  rw [List.replicate_succ']
  apply push_parent
  cases n with
  | zero => exact .inl rfl
  | succ n => exact .inr (by rw [List.replicate_succ', List.getLast?_concat])

theorem onlyInFront_push (front : OnlyInFront parent names) : OnlyInFront parent (push names name) := by
  obtain ⟨n, others, rfl, plain⟩ := front
  by_cases moves : Moves name
  · by_cases back : name = parent
    · -- A way up joins the others, unless there is a name that it takes away.
      subst back
      rcases List.eq_nil_or_concat others with rfl | ⟨before, last, rfl⟩
      · refine ⟨n + 1, [], ?_, List.not_mem_nil⟩
        rw [List.append_nil, List.append_nil, push_replicate_parent]
      · rw [List.concat_eq_append, List.mem_append, not_or] at plain
        have named : last ≠ parent := fun same => plain.2 (List.mem_singleton.mpr same.symm)
        rw [List.concat_eq_append, ← List.append_assoc, push_concat_parent named]
        exact ⟨n, before, rfl, plain.1⟩
    · rw [push_of_ne_parent moves back, List.append_assoc]
      refine ⟨n, others ++ [name], rfl, ?_⟩
      rw [List.mem_append, not_or]
      exact ⟨plain, fun member => back (List.mem_singleton.mp member).symm⟩
  · rw [push_of_not_moves moves]
    exact ⟨n, others, rfl, plain⟩

theorem onlyInFront_foldl_push (front : OnlyInFront parent names) : OnlyInFront parent (parts.foldl push names) := by
  induction parts generalizing names with
  | nil => exact front
  | cons part rest ih => exact ih (onlyInFront_push front)

theorem onlyInFront_walk : OnlyInFront parent (walk [] path) :=
  onlyInFront_foldl_push ⟨0, [], rfl, List.not_mem_nil⟩

theorem OnlyInFront.not_mem {α : Type} {entry : α} {entries : List α} (front : OnlyInFront entry entries)
    (other : entries.head? ≠ some entry) : entry ∉ entries := by
  obtain ⟨n, others, rfl, absent⟩ := front
  cases n with
  | zero => exact absent
  | succ n => exact absurd rfl other

/-! ### Names that are resolved -/

theorem foldl_push_of_plain (move : ∀ entry ∈ parts, Moves entry) (plain : parent ∉ parts) :
    parts.foldl push names = names ++ parts := by
  induction parts generalizing names with
  | nil => simp
  | cons part rest ih =>
    rw [List.forall_mem_cons] at move
    rw [List.mem_cons, not_or] at plain
    rw [List.foldl_cons, push_of_ne_parent move.1 (Ne.symm plain.1), ih move.2 plain.2, List.append_assoc]
    rfl

theorem foldl_push_self (move : ∀ entry ∈ names, Moves entry) (front : OnlyInFront parent names) :
    names.foldl push [] = names := by
  obtain ⟨n, others, rfl, plain⟩ := front
  have ups : (List.replicate n parent).foldl push [] = List.replicate n parent := by
    clear move
    induction n with
    | zero => rfl
    | succ n ih =>
      rw [List.replicate_succ', List.foldl_append, ih, ← List.replicate_succ']
      exact push_replicate_parent n
  rw [List.foldl_append, ups, foldl_push_of_plain (fun entry member => move entry (List.mem_append_right _ member)) plain]

/-! ### The text of components -/

theorem walk_led {names : List (List Char)} (apart : Apart '/' names) (move : ∀ entry ∈ names, Moves entry)
    (front : OnlyInFront parent names) : walk [] (led '/' names) = names := by
  cases names with
  | nil => exact walk_nil
  | cons first others =>
    rw [led_cons, walk_slash]
    unfold walk
    rw [splitAtEach_led apart, foldl_push_self move front]

/-- A drive with more of a name behind it. -/
def ContinuesDrive (entry : List Char) : Prop :=
  ∃ letter rest, letter.isAlpha = true ∧ rest ≠ [] ∧ entry = letter :: ':' :: rest

/-- A first name that is not more than a drive makes a drive with the names behind it only by being one. -/
theorem drive_of_text {first rest : List Char} {others : List (List Char)} {letter : Char} (filled : first ≠ [])
    (alpha : letter.isAlpha = true) (short : ¬ ContinuesDrive first)
    (text : first ++ led '/' others = letter :: ':' :: rest) : first = [letter, ':'] ∧ rest = led '/' others := by
  match first, filled with
  | [c], _ =>
    obtain ⟨-, colon⟩ := List.cons.inj text
    change led '/' others = ':' :: rest at colon
    have boundary : led '/' others = [] ∨ ∃ t, led '/' others = '/' :: t := led_boundary others
    rcases boundary with ended | ⟨more, goes⟩
    · rw [ended] at colon
      cases colon
    · rw [goes] at colon
      exact absurd (List.cons.inj colon).1 (by decide)
  | c :: d :: more, _ =>
    obtain ⟨rfl, colon⟩ := List.cons.inj text
    obtain ⟨rfl, behind⟩ := List.cons.inj colon
    have bare : more = [] := Decidable.byContradiction fun longer => short ⟨c, more, alpha, longer, rfl⟩
    subst bare
    exact ⟨rfl, behind.symm⟩

theorem split_intercalate_walk (short : ∀ entry ∈ (walk [] path).head?, ¬ ContinuesDrive entry) :
    split (['/'].intercalate (walk [] path)) = walk [] path := by
  have move : ∀ entry ∈ walk [] path, Moves entry := fun _ member => (mem_walk member).2
  have front : OnlyInFront parent (walk [] path) := onlyInFront_walk
  have apart : Apart '/' (walk [] path) := apart_walk
  generalize walk [] path = names at *
  cases names with
  | nil => rfl
  | cons first others =>
    have filled : first ≠ [] := (move first List.mem_cons_self).1
    rw [intercalate_eq_led]
    rcases root_cases (first ++ led '/' others) with ⟨rest, start⟩ | ⟨letter, rest, alpha, start⟩ | rootless
    · cases first with
      | nil => exact absurd rfl filled
      | cons c more =>
        obtain ⟨rfl, -⟩ := List.cons.inj start
        exact absurd List.mem_cons_self (apart_cons.mp apart).1
    · rw [List.forall_mem_cons] at move
      obtain ⟨rfl, rfl⟩ := drive_of_text filled alpha (short _ rfl) start
      have plain : parent ∉ others := fun member => front.not_mem (by simp [parent]) (List.mem_cons_of_mem _ member)
      rw [start, split_drive alpha, walk_led (apart_cons.mp apart).2 move.2 ⟨0, others, rfl, plain⟩]
    · rw [split_of_rootless rootless]
      unfold walk
      rw [splitAtEach_led apart, foldl_push_self move front]

/-- The text that components make is split into them again, unless it is a mere root or starts with a name that reads as
a drive. -/
theorem split_intercalate (bare : split path ≠ [[]]) (short : ∀ entry ∈ (split path).head?, ¬ ContinuesDrive entry) :
    split (['/'].intercalate (split path)) = split path := by
  have again : ∀ rest, walk [] (led '/' (walk [] rest)) = walk [] rest := fun rest =>
    walk_led apart_walk (fun _ member => (mem_walk member).2) onlyInFront_walk
  rcases root_cases path with ⟨rest, rfl⟩ | ⟨letter, rest, alpha, rfl⟩ | rootless
  · have same := again rest
    rw [split_slash] at bare ⊢
    rw [intercalate_eq_led, List.nil_append]
    cases names : walk [] rest with
    | nil => exact absurd (by rw [names]) bare
    | cons first others =>
      rw [names, led_cons, walk_slash] at same
      rw [led_cons, split_slash, same]
  · rw [split_drive alpha, intercalate_eq_led, List.cons_append, List.cons_append, List.nil_append, split_drive alpha,
      again]
  · rw [split_of_rootless rootless] at short ⊢
    exact split_intercalate_walk short

/-! ### Components as texts -/

theorem no_backslash_resolve (path base : List Char) : '\\' ∉ resolve path base := by
  unfold resolve
  dsimp only
  split
  · intro member
    rcases List.mem_append.mp member with inside | behind
    · have kept : trimSlashes (base.map forwardSlash) <+: base.map forwardSlash := List.rdropWhile_prefix _ _
      exact no_backslash_forwardSlash base (kept.subset inside)
    · rcases List.mem_cons.mp behind with slash | behind
      · cases slash
      · exact no_backslash_forwardSlash path behind
  · exact no_backslash_forwardSlash path

theorem resolve_root_eq_none_iff {base spec : String} :
    (splitRoot (resolve spec.toList base.toList)).1 = none ↔ IsRelative spec ∧ IsRelative base := by
  by_cases relative : IsRelative spec
  · by_cases empty : base = ""
    · subst empty
      rw [String.toList_empty, resolve_nil, ← isRelative_iff]
      exact (and_iff_left (by decide)).symm
    · have filled : base.toList.map forwardSlash ≠ [] := by simpa using empty
      rw [resolve_relative relative empty, (splitRoot_under filled).1, ← isRelative_iff]
      exact (and_iff_right relative).symm
  · rw [resolve_rooted relative, ← isRelative_iff]
    exact iff_of_false relative fun both => relative both.1

def IsDrive (entry : String) : Prop := ∃ letter, letter.isAlpha = true ∧ entry = String.ofList [letter, ':']

theorem root_text {root : List Char} (start : root ∈ (splitRoot path).1) :
    String.ofList root = "" ∨ IsDrive (String.ofList root) := by
  rcases root_entry start with rfl | ⟨letter, alpha, rfl⟩
  · exact .inl rfl
  · exact .inr ⟨letter, alpha, rfl⟩

/-- A name below a root. -/
def IsName (entry : String) : Prop := entry ≠ "" ∧ entry ≠ "." ∧ '/' ∉ entry.toList ∧ '\\' ∉ entry.toList

theorem isName_of_mem_walk {name : List Char} (plain : '\\' ∉ path) (h : name ∈ walk [] path) :
    IsName (String.ofList name) := by
  have moves := (mem_walk h).2
  refine ⟨?_, ?_, ?_, ?_⟩
  · exact fun same => moves.1 (String.ofList_injective same)
  · exact fun same => moves.2 (String.ofList_injective same)
  · rw [String.toList_ofList]
    exact apart_walk name h
  · rw [String.toList_ofList]
    exact fun inside => plain (mem_of_mem_splitAtEach (mem_walk h).1 inside)

theorem OnlyInFront.map {α β : Type} {f : α → β} (injective : Function.Injective f) {entry : α} {entries : List α}
    (front : OnlyInFront entry entries) : OnlyInFront (f entry) (entries.map f) := by
  obtain ⟨n, others, rfl, plain⟩ := front
  refine ⟨n, others.map f, by simp, fun member => plain ?_⟩
  obtain ⟨other, listed, same⟩ := List.mem_map.mp member
  exact injective same ▸ listed

/-- The text that components make with slashes between them. -/
theorem toList_text (entries : List (List Char)) :
    ("/".intercalate (entries.map String.ofList)).toList = ['/'].intercalate entries := by
  rw [String.toList_intercalate, List.map_map]
  simp [Function.comp_def]

theorem not_mem_intercalate {entries : List (List Char)} (plain : ∀ entry ∈ entries, '\\' ∉ entry) :
    '\\' ∉ ['/'].intercalate entries := by
  cases entries with
  | nil => exact List.not_mem_nil
  | cons first others =>
    rw [List.forall_mem_cons] at plain
    rw [intercalate_eq_led, List.mem_append, not_or]
    refine ⟨plain.1, fun member => ?_⟩
    rcases mem_led member with slash | ⟨part, listed, inside⟩
    · cases slash
    · exact plain.2 part listed inside

theorem resolve_of_plain (plain : '\\' ∉ path) : resolve path [] = path := by
  rw [resolve_nil, map_forwardSlash_of_plain plain]

theorem no_backslash_split (plain : '\\' ∉ path) : ∀ entry ∈ split path, '\\' ∉ entry := by
  intro entry member inside
  rw [split_eq] at member
  rcases List.mem_append.mp member with root | below
  · rcases root_entry (Option.mem_toList.mp root) with rfl | ⟨letter, alpha, rfl⟩
    · exact absurd inside List.not_mem_nil
    · have back : '\\' = letter := by simpa using inside
      subst back
      exact absurd alpha (by decide)
  · exact plain ((splitRoot_suffix path).subset (mem_of_mem_splitAtEach (mem_walk below).1 inside))

/-- A root, if the path or its base has one, and below it names that are resolved. -/
theorem components_shape (base spec : String) : ∃ root entries, components spec base = root ++ entries ∧
    root.length = (if IsRelative spec ∧ IsRelative base then 0 else 1) ∧
    (∀ entry ∈ root, entry = "" ∨ IsDrive entry) ∧ (∀ entry ∈ entries, IsName entry) ∧ OnlyInFront ".." entries := by
  have plain : '\\' ∉ (splitRoot (resolve spec.toList base.toList)).2 := fun back =>
    no_backslash_resolve _ _ ((splitRoot_suffix _).subset back)
  refine ⟨(splitRoot (resolve spec.toList base.toList)).1.toList.map String.ofList,
    (walk [] (splitRoot (resolve spec.toList base.toList)).2).map String.ofList, ?_, ?_, ?_, ?_, ?_⟩
  · rw [components_eq, split_eq, List.map_append]
  · rw [List.length_map]
    exact length_root resolve_root_eq_none_iff
  · intro entry member
    obtain ⟨root, start, rfl⟩ := List.mem_map.mp member
    exact root_text (Option.mem_toList.mp start)
  · intro entry member
    obtain ⟨name, below, rfl⟩ := List.mem_map.mp member
    exact isName_of_mem_walk plain below
  · exact onlyInFront_walk.map fun _ _ same => String.ofList_injective same

/-- Components, put together with slashes, come apart into themselves. -/
theorem components_text {base spec : String} (bare : components spec base ≠ [""])
    (short : ∀ first ∈ (components spec base).head?, ¬ ContinuesDrive first.toList) :
    components ("/".intercalate (components spec base)) "" = components spec base := by
  have plain := no_backslash_split (no_backslash_resolve spec.toList base.toList)
  have bare' : split (resolve spec.toList base.toList) ≠ [[]] := fun same => bare (by rw [components_eq, same]; rfl)
  have short' : ∀ entry ∈ (split (resolve spec.toList base.toList)).head?, ¬ ContinuesDrive entry := by
    intro entry first
    rw [components_eq, List.head?_map] at short
    simpa using short (String.ofList entry) (Option.mem_map_of_mem _ first)
  rw [components_eq, String.toList_empty, components_eq spec, toList_text, resolve_of_plain (not_mem_intercalate plain),
    split_intercalate bare' short']

end CompilerAdapter.Path
