import CompilerAdapter.Regex.Language
import CompilerAdapter.Regex.Reader

/-!
# Reading what is written

The text of an expression is read as an expression that matches the same, if the text shows how the expression is put
together: `read_source`. How much parentheses have to show depends on what an expression stands in, its `Rank`.
-/

namespace CompilerAdapter

/-- The characters that a set leaves out are written as they are. -/
def CharTest.isWritten : CharTest → Bool
  | .only _ => true
  | .noneOf chars => !chars.isEmpty && chars.all fun c => c != ']' && c != '\\' && c != '-'
  | .any => true
  | .digit => false
  | .within _ => false

theorem CharTest.isWritten_noneOf {chars : List Char} : (CharTest.noneOf chars).isWritten = true ↔
    chars ≠ [] ∧ ∀ c ∈ chars, c ≠ ']' ∧ c ≠ '\\' ∧ c ≠ '-' := by
  simp [CharTest.isWritten, and_assoc]

end CompilerAdapter

namespace CompilerAdapter.Regex
open State

/-- What an expression may stand in without parentheses: a repetition, a sequence or a choice. -/
inductive Rank where
  | item
  | sequence
  | choice

/-- Whether the text of an expression shows how the expression is put together. -/
def isWritten : Rank → Regex → Bool
  | _, .char test => test.isWritten
  | _, .group inner => inner.isWritten .choice
  | _, .notAhead inner => inner.isWritten .choice
  | .item, _ => false
  | _, .empty => true
  | _, .finish => true
  | _, .seq first second => first.isWritten .sequence && second.isWritten .sequence
  | _, .repeated _ _ inner => inner.isWritten .item
  | .sequence, .alt _ _ => false
  | .choice, .alt left right => left.isWritten .choice && right.isWritten .choice

theorem isWritten_seq {first second : Regex} : (seq first second).isWritten .sequence = true ↔
    first.isWritten .sequence = true ∧ second.isWritten .sequence = true := Bool.and_eq_true_iff

/-- A sequence may stand in a choice. -/
theorem isWritten_choice_of_sequence {r : Regex} (written : r.isWritten .sequence = true) :
    r.isWritten .choice = true := by
  cases r with
  | alt left right => cases written
  | _ => exact written

/-- Whether expressions match the same. -/
def Alike (r r' : Regex) : Prop := ∀ same, r.Matches same = r'.Matches same

/-- Whether the text of an expression is read, in what it may stand in, as something that matches the same. -/
def IsRead : Rank → Regex → Prop
  | .item, r => ∃ item, Alike item r ∧
      (∀ times (level : Level), (level.push item).repeatLast times = .ok (level.push (.repeated times false item))) ∧
      ∀ level outer, readOn ⟨.plain, level, outer⟩ r.source = .ok ⟨.plain, level.push item, outer⟩
  | .sequence, r => ∃ items, Alike (.sequence items.reverse) r ∧
      ∀ level outer, readOn ⟨.plain, level, outer⟩ r.source =
        .ok ⟨.plain, { level with items := items ++ level.items }, outer⟩
  | .choice, r => ∀ ahead before, ∃ level : Level, level.ahead = ahead ∧ Alike level.regex (before.elim r (.alt · r)) ∧
      ∀ outer, readOn ⟨.plain, ⟨ahead, before, []⟩, outer⟩ r.source = .ok ⟨.plain, level, outer⟩

variable {r first second left right inner : Regex} {test : CharTest} {s t : List Char}

/-! ### Expressions that match the same -/

theorem Alike.trans {r'' : Regex} (h : Alike r first) (h' : Alike first r'') : Alike r r'' :=
  fun same => (h same).trans (h' same)

theorem Alike.seq (h : Alike first left) (h' : Alike second right) : Alike (.seq first second) (.seq left right) := by
  intro same
  funext s t
  simp only [Matches, h same, h' same]

theorem Alike.alt (h : Alike first left) (h' : Alike second right) : Alike (.alt first second) (.alt left right) := by
  intro same
  funext s t
  simp only [Matches, h same, h' same]

theorem Alike.repeated {times : Repetition} {isLazy : Bool} (h : Alike r inner) :
    Alike (.repeated times isLazy r) (.repeated times isLazy inner) := by
  intro same
  funext s t
  cases times <;> simp only [Matches, h same]

theorem Alike.notAhead (h : Alike r inner) : Alike (.notAhead r) (.notAhead inner) := by
  intro same
  funext s t
  simp only [Matches, h same]

theorem alike_alt_alt : Alike (.alt (.alt r left) right) (.alt r (.alt left right)) := by
  intro same
  funext s t
  simp only [Matches, or_assoc]

theorem alike_sequence_singleton : Alike (.sequence [r]) r := by
  intro same
  funext s t
  simp [sequence, Matches]

theorem alike_sequence_append {front back : List Regex} :
    Alike (.sequence (front ++ back)) (.seq (.sequence front) (.sequence back)) := by
  intro same
  induction front with
  | nil =>
    funext s t
    simp [sequence, Matches]
  | cons item rest ih =>
    funext s t
    simp only [List.cons_append, sequence, Matches, ih, eq_iff_iff]
    constructor
    · rintro ⟨u, first, v, later, last⟩
      exact ⟨v, ⟨u, first, later⟩, last⟩
    · rintro ⟨v, ⟨u, first, later⟩, last⟩
      exact ⟨u, first, v, later, last⟩

/-! ### Reading in steps -/

theorem readOn_single {state next : State} {c : Char} (h : step state c = .ok next) : state.readOn [c] = .ok next := by
  unfold readOn
  rw [List.foldlM_cons, h]
  rfl

theorem readOn_append {state next : State} (h : state.readOn s = .ok next) :
    state.readOn (s ++ t) = next.readOn t := by
  unfold readOn at h ⊢
  rw [List.foldlM_append, h]
  rfl

theorem readOn_cons {state next : State} {c : Char} (h : step state c = .ok next) :
    state.readOn (c :: t) = next.readOn t :=
  readOn_append (readOn_single h)

theorem plainStep_of_not_isReserved {c : Char} (plain : isReserved c = false) (level : Level) (outer : List Level) :
    plainStep level outer c = .ok ⟨.plain, level.push (.char (.only c)), outer⟩ := by
  unfold plainStep
  split <;> first | rfl | exact absurd plain (by decide)

theorem step_repetition {times : Repetition} {item : Regex} {level next : Level} {outer : List Level}
    (h : (level.push item).repeatLast times = .ok next) :
    step ⟨.plain, level.push item, outer⟩ times.source = .ok ⟨.plain, next, outer⟩ := by
  have begun : level.push item ≠ .start := by simp [Level.push, Level.start]
  cases times <;> simp only [step, Repetition.source, plainStep, h, begun, false_and, if_false] <;> rfl

/-! ### Items -/

theorem readOn_excluded {chars more : List Char} {level : Level} {outer : List Level}
    (clean : ∀ c ∈ more, c ≠ ']' ∧ c ≠ '\\' ∧ c ≠ '-') : readOn ⟨.excluded chars, level, outer⟩ more =
      .ok ⟨.excluded (more.reverse ++ chars), level, outer⟩ := by
  induction more generalizing chars with
  | nil => rfl
  | cons c rest ih =>
    rw [List.forall_mem_cons] at clean
    have read : step ⟨.excluded chars, level, outer⟩ c = .ok ⟨.excluded (c :: chars), level, outer⟩ := by
      simp [step, clean.1]
    rw [readOn_cons read, ih clean.2, List.reverse_cons, List.append_assoc]
    rfl

theorem readOn_char (written : test.isWritten = true) (level : Level) (outer : List Level) :
    readOn ⟨.plain, level, outer⟩ test.source = .ok ⟨.plain, level.push (.char test), outer⟩ := by
  cases test with
  | only c =>
    change readOn _ (if isReserved c then ['\\', c] else [c]) = _
    by_cases reserved : isReserved c
    · have unnamed : c.isAlphanum = false := by
        simp only [isReserved, Bool.not_eq_true', Bool.or_eq_false_iff] at reserved
        exact reserved.1.1.1.1
      have escapes : step ⟨.plain, level, outer⟩ '\\' = .ok ⟨.escape, level, outer⟩ := rfl
      rw [if_pos reserved, readOn_cons escapes]
      apply readOn_single
      simp [step, unnamed]
    · rw [if_neg reserved]
      exact readOn_single (plainStep_of_not_isReserved (Bool.eq_false_iff.mpr reserved) level outer)
  | noneOf chars =>
    rw [CharTest.isWritten_noneOf] at written
    have opens : readOn ⟨.plain, level, outer⟩ ['[', '^'] = .ok ⟨.excluded [], level, outer⟩ := rfl
    have closes : step ⟨.excluded (chars.reverse ++ []), level, outer⟩ ']' =
        .ok ⟨.plain, level.push (.char (.noneOf chars)), outer⟩ := by
      simp [step, written.1]
    change readOn _ (['[', '^'] ++ (chars ++ [']'])) = _
    rw [readOn_append opens, readOn_append (readOn_excluded written.2), readOn_single closes]
  | any => rfl
  | digit => cases written
  | within ranges => cases written

theorem isRead_char (written : test.isWritten = true) : IsRead .item (.char test) :=
  ⟨.char test, fun _ => rfl, fun _ _ => rfl, readOn_char written⟩

theorem IsRead.group (h : IsRead .choice inner) : IsRead .item (.group inner) := by
  unfold IsRead at h
  obtain ⟨group, mild, alike, read⟩ := h false none
  refine ⟨.group group.regex, fun same => alike same, fun _ _ => rfl, fun level outer => ?_⟩
  have opens : step ⟨.plain, level, outer⟩ '(' = .ok ⟨.plain, ⟨false, none, []⟩, level :: outer⟩ := rfl
  have closes : step ⟨.plain, group, level :: outer⟩ ')' = .ok ⟨.plain, level.push (.group group.regex), outer⟩ := by
    simp [step, plainStep, Level.closed, mild]
  change readOn _ ('(' :: (inner.source ++ [')'])) = _
  rw [readOn_cons opens, readOn_append (read _), readOn_single closes]

theorem IsRead.notAhead (h : IsRead .choice inner) : IsRead .item (.notAhead inner) := by
  unfold IsRead at h
  obtain ⟨group, strict, alike, read⟩ := h true none
  refine ⟨.notAhead group.regex, alike.notAhead, fun _ _ => rfl, fun level outer => ?_⟩
  have opens : readOn ⟨.plain, level, outer⟩ ['(', '?', '!'] = .ok ⟨.plain, ⟨true, none, []⟩, level :: outer⟩ := rfl
  have closes : step ⟨.plain, group, level :: outer⟩ ')' = .ok ⟨.plain, level.push (.notAhead group.regex), outer⟩ := by
    simp [step, plainStep, Level.closed, strict]
  change readOn _ (['(', '?', '!'] ++ inner.source ++ [')']) = _
  rw [List.append_assoc, readOn_append opens, readOn_append (read _), readOn_single closes]

/-! ### Sequences -/

theorem IsRead.sequence (h : IsRead .item r) : IsRead .sequence r := by
  obtain ⟨item, alike, _, read⟩ := h
  exact ⟨[item], alike_sequence_singleton.trans alike, read⟩

theorem isRead_empty : IsRead .sequence .empty := ⟨[], fun _ => rfl, fun _ _ => rfl⟩

theorem isRead_finish : IsRead .sequence .finish := ⟨[.finish], alike_sequence_singleton, fun _ _ => rfl⟩

theorem IsRead.seq (h : IsRead .sequence first) (h' : IsRead .sequence second) : IsRead .sequence (.seq first second) := by
  obtain ⟨items, alike, read⟩ := h
  obtain ⟨items', alike', read'⟩ := h'
  refine ⟨items' ++ items, ?_, fun level outer => ?_⟩
  · rw [List.reverse_append]
    exact alike_sequence_append.trans (alike.seq alike')
  · change readOn _ (first.source ++ second.source) = _
    rw [readOn_append (read level outer), read', List.append_assoc]

theorem IsRead.repeated {times : Repetition} {isLazy : Bool} (h : IsRead .item inner) :
    IsRead .sequence (.repeated times isLazy inner) := by
  obtain ⟨item, alike, repeats, read⟩ := h
  refine ⟨[.repeated times isLazy item], alike_sequence_singleton.trans alike.repeated, fun level outer => ?_⟩
  have again : step ⟨.plain, level.push item, outer⟩ times.source =
      .ok ⟨.plain, level.push (.repeated times false item), outer⟩ := step_repetition (repeats times level)
  change readOn _ (inner.source ++ times.source :: (if isLazy then ['?'] else [])) = _
  rw [readOn_append (read level outer), readOn_cons again]
  cases isLazy with
  | false => rfl
  | true =>
    have lazily : (level.push (.repeated times false item)).repeatLast .optional =
        .ok (level.push (.repeated times true item)) := rfl
    exact readOn_single (step_repetition lazily)

/-! ### Choices -/

theorem IsRead.choice (h : IsRead .sequence r) : IsRead .choice r := by
  obtain ⟨items, alike, read⟩ := h
  intro ahead before
  refine ⟨⟨ahead, before, items ++ []⟩, rfl, ?_, read _⟩
  rw [List.append_nil]
  cases before with
  | none => exact alike
  | some left => exact Alike.alt (fun _ => rfl) alike

theorem IsRead.alt (h : IsRead .choice left) (h' : IsRead .choice right) : IsRead .choice (.alt left right) := by
  intro ahead before
  obtain ⟨level, rfl, alike, read⟩ := h ahead before
  obtain ⟨level', same, alike', read'⟩ := h' level.ahead (some level.regex)
  refine ⟨level', same, alike'.trans ?_, fun outer => ?_⟩
  · -- Alternatives are read from the left, whichever way they stand in each other.
    cases before with
    | none => exact alike.alt fun _ => rfl
    | some earlier => exact (alike.alt fun _ => rfl).trans alike_alt_alt
  · have ends : step ⟨.plain, level, outer⟩ '|' = .ok ⟨.plain, ⟨level.ahead, some level.regex, []⟩, outer⟩ := rfl
    change readOn _ (left.source ++ '|' :: right.source) = _
    rw [readOn_append (read outer), readOn_cons ends, read']

/-! ### Main statement -/

theorem IsRead.loose {rank : Rank} (h : IsRead .sequence r) (loose : rank ≠ .item) : IsRead rank r := by
  cases rank with
  | item => exact absurd rfl loose
  | sequence => exact h
  | choice => exact h.choice

theorem IsRead.of_item {rank : Rank} (h : IsRead .item r) : IsRead rank r := by
  cases rank with
  | item => exact h
  | sequence => exact h.sequence
  | choice => exact h.sequence.choice

theorem isRead_of_isWritten {rank : Rank} (written : r.isWritten rank = true) : IsRead rank r := by
  induction r generalizing rank with
  | empty => exact isRead_empty.loose (by rintro rfl; cases written)
  | finish => exact isRead_finish.loose (by rintro rfl; cases written)
  | char test => exact (isRead_char (by cases rank <;> exact written)).of_item
  | group inner ih => exact (ih (by cases rank <;> exact written)).group.of_item
  | notAhead inner ih => exact (ih (by cases rank <;> exact written)).notAhead.of_item
  | seq first second ihFirst ihSecond =>
    have loose : rank ≠ .item := by rintro rfl; cases written
    have parts : first.isWritten .sequence = true ∧ second.isWritten .sequence = true := by
      cases rank with
      | item => cases written
      | sequence => exact Bool.and_eq_true_iff.mp written
      | choice => exact Bool.and_eq_true_iff.mp written
    exact ((ihFirst parts.1).seq (ihSecond parts.2)).loose loose
  | repeated times isLazy inner ih =>
    have loose : rank ≠ .item := by rintro rfl; cases written
    have item : inner.isWritten .item = true := by
      cases rank with
      | item => cases written
      | sequence => exact written
      | choice => exact written
    exact (ih item).repeated.loose loose
  | alt left right ihLeft ihRight =>
    cases rank with
    | item => cases written
    | sequence => cases written
    | choice =>
      obtain ⟨writtenLeft, writtenRight⟩ := Bool.and_eq_true_iff.mp written
      exact (ihLeft writtenLeft).alt (ihRight writtenRight)

theorem read_source (written : r.isWritten .sequence = true) :
    ∃ items, read r.source = .ok (.sequence items) ∧ Alike (.sequence items) r := by
  obtain ⟨items, alike, read⟩ := isRead_of_isWritten written
  refine ⟨items.reverse, ?_, alike⟩
  unfold Regex.read State.start Level.start
  rw [read, List.append_nil]
  rfl

end CompilerAdapter.Regex

namespace CompilerAdapter

/-- The text of a pattern is read as a pattern that matches the same texts. -/
theorem Pattern.read_source {p : Pattern} (written : p.body.isWritten .sequence = true) :
    ∃ q, Pattern.read p.source = .ok q ∧ q.test = p.test := by
  obtain ⟨items, read, alike⟩ := Regex.read_source written
  refine ⟨⟨.sequence items⟩, ?_, ?_⟩
  · change (do Pattern.tie (← Regex.read p.body.source)) = _
    rw [read]
    cases items <;> rfl
  · funext same text
    rw [Bool.eq_iff_iff]
    unfold Pattern.test
    rw [Regex.run_eq_true_iff, Regex.run_eq_true_iff, alike same]

end CompilerAdapter
