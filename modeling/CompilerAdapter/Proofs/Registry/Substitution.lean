import CompilerAdapter.Proofs.Number.Numeral
import CompilerAdapter.Proofs.Text.Markers
import CompilerAdapter.Registry.Basic

/-!
# Filling in a message

The placeholders of a message are filled in one after another, each argument in the text that the ones before it left.
Where braces are not nested and no argument brings in a brace, that is the same as filling in all placeholders at once:
`formatMessage_eq_substitute`.
-/

namespace CompilerAdapter.Registry

/-- Between two opening braces there is a closing one. -/
def Unnested (text : List Char) : Prop :=
  ∀ front between back, text = front ++ '{' :: (between ++ '{' :: back) → '}' ∈ between

/-- A text without braces of either kind. -/
def Braceless (text : List Char) : Prop := '{' ∉ text ∧ '}' ∉ text

/-- Puts values in the places of the placeholders of their indices, all of them at once: it goes through the text from
left to right and does not look at what it has put in. -/
def substitute (values : List (List Char × Nat)) : List Char → List Char
  | [] => []
  | c :: rest =>
    match values.find? fun value => (placeholder value.2).isPrefixOf (c :: rest) with
    | some (value, index) => value ++ substitute values (rest.drop ((placeholder index).length - 1))
    | none => c :: substitute values rest
  termination_by text => text.length

/-- The value for what stands in braces: the first one whose index it is. -/
def valueOf? (values : List (List Char × Nat)) (inner : List Char) : Option (List Char) :=
  (values.find? fun value => Nat.toDigits 10 value.2 = inner).map Prod.fst

/-- A text whose braces are not nested, taken apart at its opening braces. -/
inductive Template : List Char → Prop
  | nil : Template []
  | other {c : Char} {rest : List Char} (different : c ≠ '{') (behind : Template rest) : Template (c :: rest)
  | unclosed {inner : List Char} (plain : Braceless inner) : Template ('{' :: inner)
  | closed {inner rest : List Char} (plain : Braceless inner) (behind : Template rest) :
    Template ('{' :: (inner ++ '}' :: rest))

variable {c : Char} {index : Nat} {text front inner rest value : List Char} {values more : List (List Char × Nat)}
  {args : List Scalar}

/-! ### Where a placeholder stands -/

theorem placeholder_prefix_cons :
    placeholder index <+: c :: rest ↔ c = '{' ∧ Nat.toDigits 10 index ++ ['}'] <+: rest := by
  rw [placeholder, List.cons_append, List.cons_prefix_cons, eq_comm]

theorem placeholder_prefix_closed (plain : '}' ∉ inner) :
    placeholder index <+: '{' :: (inner ++ '}' :: rest) ↔ Nat.toDigits 10 index = inner := by
  rw [placeholder_prefix_cons]
  constructor
  · rintro ⟨-, behind, whole⟩
    rw [List.append_assoc] at whole
    exact (append_cons_inj_of_first (Numeral.not_mem_toDigits (by decide)) plain whole).1
  · rintro rfl
    exact ⟨rfl, rest, by simp⟩

theorem not_placeholder_prefix_unclosed (plain : '}' ∉ inner) : ¬ placeholder index <+: '{' :: inner := by
  rw [placeholder_prefix_cons]
  rintro ⟨-, starts⟩
  exact plain (starts.subset (by simp))

/-! ### All at once -/

theorem substitute_of_none (other : ∀ value ∈ values, ¬ placeholder value.2 <+: c :: rest) :
    substitute values (c :: rest) = c :: substitute values rest := by
  have none : values.find? (fun value => (placeholder value.2).isPrefixOf (c :: rest)) = none := by
    simpa [List.find?_eq_none] using other
  rw [substitute, none]

@[simp] theorem substitute_empty (text : List Char) : substitute [] text = text := by
  induction text with
  | nil => rw [substitute]
  | cons c rest ih => rw [substitute_of_none (by simp), ih]

theorem substitute_cons (different : c ≠ '{') : substitute values (c :: rest) = c :: substitute values rest :=
  substitute_of_none fun _ _ starts => different (placeholder_prefix_cons.mp starts).1

theorem substitute_append (plain : '{' ∉ front) :
    substitute values (front ++ rest) = front ++ substitute values rest := by
  induction front with
  | nil => rfl
  | cons c front ih =>
    rw [List.mem_cons, not_or] at plain
    rw [List.cons_append, substitute_cons (Ne.symm plain.1), ih plain.2, List.cons_append]

theorem substitute_unclosed (plain : Braceless inner) : substitute values ('{' :: inner) = '{' :: inner := by
  have copied : substitute values (inner ++ []) = inner ++ substitute values [] := substitute_append plain.1
  rw [List.append_nil, substitute, List.append_nil] at copied
  rw [substitute_of_none fun _ _ => not_placeholder_prefix_unclosed plain.2, copied]

theorem substitute_closed (values : List (List Char × Nat)) (rest : List Char) (plain : Braceless inner) :
    substitute values ('{' :: (inner ++ '}' :: rest)) =
      (valueOf? values inner).getD ('{' :: (inner ++ ['}'])) ++ substitute values rest := by
  have search : (values.find? fun value => (placeholder value.2).isPrefixOf ('{' :: (inner ++ '}' :: rest))) =
      values.find? fun value => Nat.toDigits 10 value.2 = inner := by
    congr 1
    funext value
    rw [Bool.eq_iff_iff, List.isPrefixOf_iff_prefix, placeholder_prefix_closed plain.2, decide_eq_true_iff]
  rw [substitute, search, valueOf?]
  cases found : values.find? fun value => Nat.toDigits 10 value.2 = inner with
  | some hit =>
    have same : Nat.toDigits 10 hit.2 = inner := by simpa using List.find?_some found
    simp [placeholder, same]
  | none =>
    have copied : substitute values (inner ++ ['}'] ++ rest) = inner ++ ['}'] ++ substitute values rest :=
      substitute_append (by simp [plain.1])
    simpa using copied

/-! ### Braces that are not nested -/

def isBrace (c : Char) : Bool := c = '{' ∨ c = '}'

theorem isBrace_iff : isBrace c = true ↔ c = '{' ∨ c = '}' := decide_eq_true_iff

theorem braceless_of_not_isBrace (plain : ∀ c ∈ text, isBrace c = false) : Braceless text :=
  ⟨fun member => absurd (plain _ member) (by decide), fun member => absurd (plain _ member) (by decide)⟩

theorem unnested_nil : Unnested [] := by
  intro front between back whole
  simp at whole

theorem Unnested.behind (front : List Char) (unnested : Unnested (front ++ rest)) : Unnested rest := by
  rintro before between back rfl
  exact unnested (front ++ before) between back (by simp)

/-- What follows an opening brace does not have another one as its first brace. -/
theorem unnested_cons : Unnested (c :: rest) ↔ (c = '{' → rest.find? isBrace ≠ some '{') ∧ Unnested rest := by
  constructor
  · intro unnested
    refine ⟨?_, Unnested.behind [c] unnested⟩
    rintro rfl found
    obtain ⟨-, between, back, rfl, passed⟩ := List.find?_eq_some_iff_append.mp found
    have closing := unnested [] between back rfl
    exact absurd (passed _ closing) (by decide)
  · rintro ⟨follows, unnested⟩ front between back whole
    cases front with
    | nil =>
      obtain ⟨rfl, rfl⟩ := List.cons.inj whole
      refine Decidable.byContradiction fun unclosed => follows rfl ?_
      rw [List.find?_append, List.find?_cons_of_pos (by decide)]
      cases found : between.find? isBrace with
      | none => rfl
      | some b =>
        rcases isBrace_iff.mp (List.find?_some found) with rfl | rfl
        · rfl
        · exact absurd (List.mem_of_find?_eq_some found) unclosed
    | cons _ front =>
      obtain ⟨-, rfl⟩ := List.cons.inj whole
      exact unnested front between back rfl

instance Unnested.decidable : DecidablePred Unnested
  | [] => isTrue unnested_nil
  | c :: rest =>
    have := Unnested.decidable rest
    decidable_of_iff ((c = '{' → rest.find? isBrace ≠ some '{') ∧ Unnested rest) unnested_cons.symm

theorem Unnested.template (unnested : Unnested text) : Template text := by
  -- The induction is on the length: behind an opening brace it goes on behind the closing one.
  induction n : text.length using Nat.strongRecOn generalizing text with
  | ind n ih =>
    subst n
    cases text with
    | nil => exact .nil
    | cons c rest =>
      obtain ⟨follows, onward⟩ := unnested_cons.mp unnested
      by_cases opening : c = '{'
      · subst opening
        cases found : rest.find? isBrace with
        | none => exact .unclosed (braceless_of_not_isBrace (by simpa using found))
        | some b =>
          obtain ⟨brace, inner, behind, rfl, passed⟩ := List.find?_eq_some_iff_append.mp found
          have plain : Braceless inner := braceless_of_not_isBrace (by simpa using passed)
          rcases isBrace_iff.mp brace with rfl | rfl
          · exact absurd found (follows rfl)
          · have shorter : behind.length < ('{' :: (inner ++ '}' :: behind)).length := by
              rw [List.length_cons, List.length_append, List.length_cons]
              omega
            have unnested' : Unnested behind := Unnested.behind (inner ++ ['}']) (by rwa [List.append_assoc])
            exact .closed plain (ih _ shorter unnested' rfl)
      · exact .other opening (ih _ (Nat.lt_succ_self _) onward rfl)

theorem Template.append (plain : '{' ∉ front) (template : Template rest) : Template (front ++ rest) := by
  induction front with
  | nil => exact template
  | cons c front ih =>
    rw [List.mem_cons, not_or] at plain
    exact .other (Ne.symm plain.1) (ih plain.2)

/-! ### One after another -/

theorem valueOf?_append : valueOf? (values ++ more) inner = (valueOf? values inner).or (valueOf? more inner) := by
  unfold valueOf?
  rw [List.find?_append, Option.map_or]

theorem braceless_of_valueOf? (plain : ∀ value ∈ values, Braceless value.1)
    (found : valueOf? values inner = some value) : Braceless value := by
  obtain ⟨hit, hits, rfl⟩ := Option.map_eq_some_iff.mp found
  exact plain hit (List.mem_of_find?_eq_some hits)

theorem Template.substitute (template : Template text) (plain : ∀ value ∈ values, Braceless value.1) :
    Template (substitute values text) := by
  induction template with
  | nil =>
    rw [Registry.substitute]
    exact .nil
  | other different _ ih =>
    rw [substitute_cons different]
    exact .other different ih
  | unclosed inner =>
    rw [substitute_unclosed inner]
    exact .unclosed inner
  | @closed inner rest braceless _ ih =>
    rw [substitute_closed values rest braceless]
    cases found : valueOf? values inner with
    | some value => exact ih.append (braceless_of_valueOf? plain found).1
    | none => simpa using Template.closed braceless ih

/-- To fill in some values and then others is to fill in all of them at once. -/
theorem substitute_substitute (template : Template text) (plain : ∀ value ∈ values, Braceless value.1) :
    substitute more (substitute values text) = substitute (values ++ more) text := by
  induction template with
  | nil => simp only [substitute]
  | other different _ ih => rw [substitute_cons different, substitute_cons different, substitute_cons different, ih]
  | unclosed inner => rw [substitute_unclosed inner, substitute_unclosed inner, substitute_unclosed inner]
  | @closed inner rest braceless _ ih =>
    rw [substitute_closed values rest braceless, substitute_closed (values ++ more) rest braceless, valueOf?_append,
      ← ih]
    cases found : valueOf? values inner with
    | some value => exact substitute_append (braceless_of_valueOf? plain found).1
    | none => simpa using substitute_closed more (Registry.substitute values rest) braceless

theorem replaceFrom_eq_drop (old new : List Char) (skip : Nat) (text : List Char) :
    replaceFrom old new skip text = replaceAll old new (text.drop skip) := by
  induction text generalizing skip with
  | nil => cases skip <;> rfl
  | cons c rest ih =>
    cases skip with
    | zero => rfl
    | succ skip => exact ih skip

/-- To replace one placeholder everywhere is to fill in one value. -/
theorem replaceAll_placeholder (index : Nat) (value text : List Char) :
    replaceAll (placeholder index) value text = substitute [(value, index)] text := by
  induction n : text.length using Nat.strongRecOn generalizing text with
  | ind n ih =>
    subst n
    cases text with
    | nil =>
      rw [substitute]
      rfl
    | cons c rest =>
      rw [substitute]
      unfold replaceAll replaceFrom
      by_cases starts : (placeholder index).isPrefixOf (c :: rest) = true
      · have shorter : (rest.drop ((placeholder index).length - 1)).length < (c :: rest).length := by
          rw [List.length_drop, List.length_cons]
          omega
        rw [if_pos starts, replaceFrom_eq_drop, ih _ shorter _ rfl]
        simp [starts]
      · rw [if_neg starts, replaceFrom_eq_drop, List.drop_zero, ih _ (Nat.lt_succ_self _) _ rfl]
        simp [starts]

theorem fillFrom_eq_substitute (template : Template text) (plain : ∀ arg ∈ args, Braceless arg.plain) :
    fillFrom index text args = substitute ((args.map Scalar.plain).zipIdx index) text := by
  -- The invariant is that the text stays a template: an argument then never completes a placeholder.
  induction args generalizing index text with
  | nil => exact (substitute_empty text).symm
  | cons arg args ih =>
    obtain ⟨here, ahead⟩ := List.forall_mem_cons.mp plain
    have single : ∀ value ∈ [(arg.plain, index)], Braceless value.1 := by simpa using here
    rw [fillFrom, replaceAll_placeholder, ih (template.substitute single) ahead, substitute_substitute template single]
    rfl

/-- In a template whose braces are not nested, arguments without braces take the places of the placeholders of their
indices all at once, and everything else stays as it is. -/
theorem formatMessage_eq_substitute (template : String) (args : List Scalar) (unnested : Unnested template.toList)
    (plain : ∀ arg ∈ args, '{' ∉ arg.plain ∧ '}' ∉ arg.plain) :
    formatMessage template args = String.ofList (substitute (args.map Scalar.plain).zipIdx template.toList) :=
  congrArg String.ofList (fillFrom_eq_substitute unnested.template plain)

theorem formatMessage_eq_substitute_unclosed :
    Unnested "\x7b1\x7d0\x7d\x7b0\x7d\x7b00\x7d\x7b2\x7d\x7b".toList ∧
      (∀ arg ∈ [Scalar.string "1", .number (.int 0)], '{' ∉ arg.plain ∧ '}' ∉ arg.plain) ∧
      formatMessage "\x7b1\x7d0\x7d\x7b0\x7d\x7b00\x7d\x7b2\x7d\x7b" [.string "1", .number (.int 0)] =
        String.ofList (substitute [(['1'], 0), (['0'], 1)]
          "\x7b1\x7d0\x7d\x7b0\x7d\x7b00\x7d\x7b2\x7d\x7b".toList) ∧
      formatMessage "\x7b1\x7d0\x7d\x7b0\x7d\x7b00\x7d\x7b2\x7d\x7b" [.string "1", .number (.int 0)] =
        "00\x7d1\x7b00\x7d\x7b2\x7d\x7b" := by
  have unnested : Unnested "\x7b1\x7d0\x7d\x7b0\x7d\x7b00\x7d\x7b2\x7d\x7b".toList := by decide
  have plain : ∀ arg ∈ [Scalar.string "1", .number (.int 0)], '{' ∉ arg.plain ∧ '}' ∉ arg.plain := by decide
  exact ⟨unnested, plain, formatMessage_eq_substitute _ _ unnested plain, by decide⟩

/-- In nested braces an argument completes a placeholder, which a later argument then fills. -/
example : formatMessage "\x7b\x7b0\x7d\x7d" [.string "1", .string "x"] = "x" := by decide

end CompilerAdapter.Registry
