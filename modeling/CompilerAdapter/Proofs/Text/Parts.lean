import CompilerAdapter.Text.Position

/-!
# Parts of a text

A text that is split at a separator and its parts determine each other. The parts are put together again with the
separator in front of each (`led`) or behind each (`trailed`).
-/

namespace CompilerAdapter

/-- No part holds the separator. -/
def Apart (separator : Char) (parts : List (List Char)) : Prop :=
  ∀ part ∈ parts, separator ∉ part

/-- The parts with the separator in front of each. -/
def led (separator : Char) (parts : List (List Char)) : List Char := parts.flatMap (separator :: ·)

/-- The parts with the separator behind each. -/
def trailed (separator : Char) (parts : List (List Char)) : List Char := parts.flatMap (· ++ [separator])

variable {separator : Char}

@[simp] theorem led_nil : led separator [] = [] := rfl

@[simp] theorem led_cons (part : List Char) (parts : List (List Char)) :
    led separator (part :: parts) = separator :: (part ++ led separator parts) := rfl

@[simp] theorem led_append (front back : List (List Char)) :
    led separator (front ++ back) = led separator front ++ led separator back := by
  simp [led]

@[simp] theorem trailed_cons (part : List Char) (parts : List (List Char)) :
    trailed separator (part :: parts) = part ++ separator :: trailed separator parts := by
  simp [trailed]

@[simp] theorem apart_nil : Apart separator [] := by
  simp [Apart]

@[simp] theorem apart_cons {part : List Char} {parts : List (List Char)} :
    Apart separator (part :: parts) ↔ separator ∉ part ∧ Apart separator parts := by
  simp [Apart]

@[simp] theorem apart_append {front back : List (List Char)} :
    Apart separator (front ++ back) ↔ Apart separator front ∧ Apart separator back := by
  simp [Apart, or_imp, forall_and]

theorem apart_map {α : Type} {f : α → List Char} {entries : List α} :
    Apart separator (entries.map f) ↔ ∀ entry ∈ entries, separator ∉ f entry := List.forall_mem_map

theorem led_eq_cons {parts : List (List Char)} {s : List Char}
    (h : led separator parts = separator :: s) :
    ∃ part rest, parts = part :: rest ∧ s = part ++ led separator rest := by
  cases parts with
  | nil => simp at h
  | cons part rest => exact ⟨part, rest, rfl, by simpa using h.symm⟩

theorem mem_led {parts : List (List Char)} {c : Char} (h : c ∈ led separator parts) :
    c = separator ∨ ∃ part ∈ parts, c ∈ part := by
  obtain ⟨part, member, inside⟩ := List.mem_flatMap.mp h
  rcases List.mem_cons.mp inside with same | inside
  · exact .inl same
  · exact .inr ⟨part, member, inside⟩

theorem intercalate_eq_led (part : List Char) (parts : List (List Char)) :
    [separator].intercalate (part :: parts) = part ++ led separator parts := by
  induction parts generalizing part with
  | nil => simp
  | cons next rest ih =>
    rw [List.intercalate_cons_cons, ih, led_cons]
    simp

/-! ### Splitting -/

theorem splitAtEach_ne_nil (s : List Char) : splitAtEach separator s ≠ [] := by
  fun_cases splitAtEach separator s <;> simp

@[simp] theorem splitAtEach_separator (s : List Char) :
    splitAtEach separator (separator :: s) = [] :: splitAtEach separator s := by
  simp [splitAtEach]

theorem splitAtEach_of_not_mem {part : List Char} (clean : separator ∉ part) :
    splitAtEach separator part = [part] := by
  induction part with
  | nil => rfl
  | cons c rest ih =>
    simp only [List.mem_cons, not_or] at clean
    simp [splitAtEach, Ne.symm clean.1, ih clean.2]

/-- A separator splits what is in front of it from what follows. -/
theorem splitAtEach_append_cons (s t : List Char) :
    splitAtEach separator (s ++ separator :: t) = splitAtEach separator s ++ splitAtEach separator t := by
  induction s with
  | nil => simp [splitAtEach]
  | cons c rest ih =>
    by_cases h : c = separator
    · subst h
      simp [ih]
    · rw [List.cons_append, splitAtEach, if_neg h, ih, splitAtEach, if_neg h]
      cases parted : splitAtEach separator rest with
      | nil => exact absurd parted (splitAtEach_ne_nil rest)
      | cons part parts => rfl

/-- The parts in front of a last separator, each ended by one, and then what follows. -/
theorem splitAtEach_trailed {parts : List (List Char)} (clean : Apart separator parts) (s : List Char) :
    splitAtEach separator (trailed separator parts ++ s) = parts ++ splitAtEach separator s := by
  induction parts with
  | nil => rfl
  | cons part rest ih =>
    rw [apart_cons] at clean
    rw [trailed_cons, List.append_assoc, List.cons_append, splitAtEach_append_cons, splitAtEach_of_not_mem clean.1,
      ih clean.2]
    rfl

theorem splitAtEach_led {part : List Char} {parts : List (List Char)} (clean : Apart separator (part :: parts)) :
    splitAtEach separator (part ++ led separator parts) = part :: parts := by
  induction parts generalizing part with
  | nil =>
    rw [apart_cons] at clean
    simpa using splitAtEach_of_not_mem clean.1
  | cons next rest ih =>
    rw [apart_cons] at clean
    rw [led_cons, splitAtEach_append_cons, splitAtEach_of_not_mem clean.1, ih clean.2]
    rfl

/-! ### Putting together -/

theorem led_splitAtEach (s : List Char) : led separator (splitAtEach separator s) = separator :: s := by
  induction s with
  | nil => rfl
  | cons c rest ih =>
    by_cases h : c = separator
    · subst h
      simp [ih]
    · rw [splitAtEach, if_neg h]
      cases parted : splitAtEach separator rest with
      | nil => exact absurd parted (splitAtEach_ne_nil rest)
      | cons part parts =>
        rw [parted] at ih
        simpa using ih

/-- Leading and trailing separators differ in the one at the end. -/
theorem cons_trailed (parts : List (List Char)) :
    separator :: trailed separator parts = led separator parts ++ [separator] := by
  induction parts with
  | nil => rfl
  | cons part rest ih => simp [ih]

theorem led_append_cons (parts : List (List Char)) (s : List Char) :
    led separator parts ++ separator :: s = separator :: (trailed separator parts ++ s) := by
  rw [← List.cons_append, cons_trailed]
  simp

theorem splitAtEach_eq_empty {s : List Char} : splitAtEach separator s = [[]] ↔ s = [] := by
  constructor
  · intro h
    have whole : led separator (splitAtEach separator s) = separator :: s := led_splitAtEach s
    simpa [h] using whole.symm
  · rintro rfl
    rfl

theorem apart_splitAtEach (s : List Char) : Apart separator (splitAtEach separator s) := by
  induction s with
  | nil => simp [splitAtEach]
  | cons c rest ih =>
    rw [splitAtEach]
    split
    · simpa using ih
    · rename_i h
      cases parted : splitAtEach separator rest with
      | nil => simpa using Ne.symm h
      | cons part parts =>
        rw [parted, apart_cons] at ih
        rw [apart_cons, List.mem_cons, not_or]
        exact ⟨⟨Ne.symm h, ih.1⟩, ih.2⟩

theorem led_inj {parts others : List (List Char)} (clean : Apart separator parts) (clean' : Apart separator others)
    (h : led separator parts = led separator others) : parts = others := by
  have split : ∀ {parts}, Apart separator parts → splitAtEach separator (led separator parts) = [] :: parts :=
    fun clean => splitAtEach_led (apart_cons.mpr ⟨List.not_mem_nil, clean⟩)
  have same := split clean
  rw [h, split clean'] at same
  exact (List.cons.inj same).2.symm

theorem append_led_inj {part other : List Char} {parts others : List (List Char)}
    (clean : Apart separator (part :: parts)) (clean' : Apart separator (other :: others))
    (h : part ++ led separator parts = other ++ led separator others) : part = other ∧ parts = others := by
  have same := led_inj clean clean' (congrArg (separator :: ·) h)
  exact List.cons.inj same

theorem intercalate_inj {parts others : List (List Char)} (clean : Apart separator parts)
    (clean' : Apart separator others) (both : parts = [] ↔ others = [])
    (h : [separator].intercalate parts = [separator].intercalate others) : parts = others := by
  cases parts with
  | nil => exact (both.mp rfl).symm
  | cons part rest =>
    cases others with
    | nil => exact both.mpr rfl
    | cons other rest' =>
      rw [intercalate_eq_led, intercalate_eq_led] at h
      obtain ⟨rfl, rfl⟩ := append_led_inj clean clean' h
      rfl

/-- Lists whose entries are written alike are equal if their entries are told apart. -/
theorem eq_of_map_eq {α β : Type} {f : α → β} {entries others : List α}
    (apart : ∀ entry ∈ entries, ∀ other ∈ others, f entry = f other → entry = other)
    (h : entries.map f = others.map f) : entries = others := by
  induction entries generalizing others with
  | nil => exact (List.map_eq_nil_iff.mp h.symm).symm
  | cons entry rest ih =>
    obtain ⟨other, rest', rfl, same, behind⟩ := List.map_eq_cons_iff.mp h.symm
    have equal : entry = other := apart entry List.mem_cons_self other List.mem_cons_self same.symm
    have equal' : rest = rest' := ih (fun entry member other member' =>
      apart entry (List.mem_cons_of_mem _ member) other (List.mem_cons_of_mem _ member')) behind.symm
    rw [equal, equal']

theorem exists_led (s : List Char) : ∃ part parts, splitAtEach separator s = part :: parts ∧
    Apart separator (part :: parts) ∧ s = part ++ led separator parts := by
  cases parted : splitAtEach separator s with
  | nil => exact absurd parted (splitAtEach_ne_nil s)
  | cons part parts =>
    have whole : led separator (splitAtEach separator s) = separator :: s := led_splitAtEach s
    rw [parted] at whole
    exact ⟨part, parts, rfl, parted ▸ apart_splitAtEach s, by simpa using whole.symm⟩

theorem exists_led_of_boundary {s : List Char} (boundary : s = [] ∨ ∃ t, s = separator :: t) :
    ∃ parts, Apart separator parts ∧ s = led separator parts := by
  rcases boundary with rfl | ⟨t, rfl⟩
  · exact ⟨[], apart_nil, rfl⟩
  · exact ⟨splitAtEach separator t, apart_splitAtEach t, (led_splitAtEach t).symm⟩

theorem led_boundary (parts : List (List Char)) :
    led separator parts = [] ∨ ∃ t, led separator parts = separator :: t := by
  cases parts with
  | nil => exact .inl rfl
  | cons part rest => exact .inr ⟨_, rfl⟩

theorem mem_of_mem_splitAtEach {s part : List Char} {c : Char} (member : part ∈ splitAtEach separator s)
    (h : c ∈ part) : c ∈ s := by
  have inside : c ∈ (separator :: s).drop 1 := by
    obtain ⟨front, back, parted⟩ := List.append_of_mem member
    rw [← led_splitAtEach, parted]
    cases front <;> simp [h]
  simpa using inside

end CompilerAdapter
