import CompilerAdapter.Proofs.Diagnostic.Listing
import CompilerAdapter.Proofs.Text.Parts
import Mathlib.Data.List.Forall2

/-!
# Chains told by their listings

The depths in a listing tell which text elaborates which, and the spaces in front of a line tell its depth. So two
chains of plain texts are flattened alike only if they have the same texts in the same nesting: `flatten_eq_iff`.
-/

namespace CompilerAdapter

/-- The characters of a line, with the spaces in front. -/
def ChainLine.content (line : ChainLine) : List Char := List.replicate (2 * line.depth) ' ' ++ line.text.toList

theorem replicate_append_inj {c : Char} {a b : Nat} {s t : List Char} (plain : s.head? ≠ some c)
    (plain' : t.head? ≠ some c) (h : List.replicate a c ++ s = List.replicate b c ++ t) : a = b ∧ s = t := by
  induction a generalizing b with
  | zero =>
    cases b with
    | zero => exact ⟨rfl, h⟩
    | succ b =>
      obtain rfl : s = _ := h
      exact absurd rfl plain
  | succ a ih =>
    cases b with
    | zero =>
      obtain rfl : _ = t := h
      exact absurd rfl plain'
    | succ b =>
      obtain ⟨rfl, same⟩ := ih (List.cons.inj h).2
      exact ⟨rfl, same⟩

namespace Message

variable {newLine : String} {m m' : Message} {messages messages' : List Message} {rest rest' : List ChainLine}

/-- Two chains with the same texts in the same nesting, whatever their codes and categories. -/
inductive SameTexts : Message → Message → Prop where
  | chain {head : String} {code code' : Int} {category category' : Category} {next next' : List Message}
      (below : List.Forall₂ SameTexts next next') :
      SameTexts (.chain head code category next) (.chain head code' category' next')

/-! ### Depths tell the nesting -/

/-- Lines with which another chain starts, if there are any. -/
def Starts (lines : List ChainLine) : Prop := ∀ line ∈ lines.head?, line.depth = 0

theorem starts_linesOfAll (chains : ∀ message ∈ messages, IsChain message) : Starts (linesOfAll messages) := by
  cases messages with
  | nil => simp [Starts, linesOfAll]
  | cons message rest =>
    obtain ⟨_⟩ := chains message List.mem_cons_self
    simp [Starts, linesOfAll, lines]

theorem not_starts_deeper {line : ChainLine} {lines : List ChainLine} : ¬ Starts (line.deeper :: lines) := by
  intro starts
  exact Nat.succ_ne_zero _ (starts _ rfl)

theorem deeper_append_inj {lines lines' : List ChainLine} (starts : Starts rest) (starts' : Starts rest')
    (h : lines.map ChainLine.deeper ++ rest = lines'.map ChainLine.deeper ++ rest') :
    lines = lines' ∧ rest = rest' := by
  induction lines generalizing lines' with
  | nil =>
    cases lines' with
    | nil => exact ⟨rfl, h⟩
    | cons line' lines' =>
      obtain rfl : rest = _ := h
      exact absurd starts not_starts_deeper
  | cons line lines ih =>
    cases lines' with
    | nil =>
      obtain rfl : _ = rest' := h
      exact absurd starts' not_starts_deeper
    | cons line' lines' =>
      obtain ⟨same, more⟩ := List.cons.inj h
      obtain ⟨rfl, behind⟩ := ih more
      have equal : line = line' := by
        cases line
        cases line'
        simpa [ChainLine.deeper] using same
      exact ⟨by rw [equal], behind⟩

theorem linesOfAll_inj (each : ∀ message ∈ messages, ∀ {message' rest rest'}, IsChain message' → Starts rest →
      Starts rest' → message.lines ++ rest = message'.lines ++ rest' → SameTexts message message' ∧ rest = rest')
    (chains : ∀ message ∈ messages, IsChain message) (chains' : ∀ message ∈ messages', IsChain message)
    (h : linesOfAll messages = linesOfAll messages') : List.Forall₂ SameTexts messages messages' := by
  induction messages generalizing messages' with
  | nil =>
    cases messages' with
    | nil => exact .nil
    | cons message' _ =>
      obtain ⟨_⟩ := chains' message' List.mem_cons_self
      simp [linesOfAll, lines] at h
  | cons message rest ih =>
    cases messages' with
    | nil =>
      obtain ⟨_⟩ := chains message List.mem_cons_self
      simp [linesOfAll, lines] at h
    | cons message' rest' =>
      rw [List.forall_mem_cons] at each chains chains'
      obtain ⟨same, behind⟩ :=
        each.1 chains'.1 (starts_linesOfAll chains.2) (starts_linesOfAll chains'.2) (by simpa [linesOfAll] using h)
      exact .cons same (ih each.2 chains.2 chains'.2 behind)

/-- The listing of a chain tells the chain and where it ends. -/
theorem lines_append_inj (chain : m.IsChain) (chain' : m'.IsChain) (starts : Starts rest) (starts' : Starts rest')
    (h : m.lines ++ rest = m'.lines ++ rest') : SameTexts m m' ∧ rest = rest' := by
  induction chain generalizing m' rest rest' with
  | @chain head code category next below ih =>
    obtain ⟨below'⟩ := chain'
    obtain ⟨same, more⟩ := List.cons.inj h
    obtain ⟨inner, behind⟩ := deeper_append_inj starts starts' more
    obtain rfl : head = _ := congrArg ChainLine.text same
    exact ⟨.chain (linesOfAll_inj ih below below' inner), behind⟩

theorem linesOfAll_eq (each : ∀ message ∈ messages, ∀ {message'}, SameTexts message message' →
      message.lines = message'.lines) (below : List.Forall₂ SameTexts messages messages') :
    linesOfAll messages = linesOfAll messages' := by
  induction below with
  | nil => rfl
  | cons same _ ih =>
    rw [List.forall_mem_cons] at each
    rw [linesOfAll, linesOfAll, each.1 same, ih each.2]

theorem SameTexts.lines_eq (chain : m.IsChain) (same : SameTexts m m') : m.lines = m'.lines := by
  induction chain generalizing m' with
  | chain _ ih =>
    obtain ⟨below⟩ := same
    rw [lines, lines, linesOfAll_eq ih below]

/-! ### Spaces tell the depths -/

/-- A text within one line, with no space in front. -/
structure IsFlush (text : String) : Prop where
  no_cr : '\r' ∉ text.toList
  no_lf : '\n' ∉ text.toList
  no_space : text.toList.head? ≠ some ' '

theorem isFlush_iff {text : String} :
    IsFlush text ↔ '\r' ∉ text.toList ∧ '\n' ∉ text.toList ∧ text.toList.head? ≠ some ' ' :=
  ⟨fun flush => ⟨flush.no_cr, flush.no_lf, flush.no_space⟩, fun parts => ⟨parts.1, parts.2.1, parts.2.2⟩⟩

instance : DecidablePred IsFlush := fun _ => decidable_of_iff _ isFlush_iff.symm

theorem content_inj {line line' : ChainLine} (flush : IsFlush line.text) (flush' : IsFlush line'.text)
    (h : line.content = line'.content) : line = line' := by
  obtain ⟨depth, text⟩ := line
  obtain ⟨depth', text'⟩ := line'
  obtain ⟨spaces, same⟩ := replicate_append_inj flush.no_space flush'.no_space h
  obtain rfl : depth = depth' := Nat.eq_of_mul_eq_mul_left (by decide) spaces
  obtain rfl : text = text' := String.toList_inj.mp same
  rfl

theorem no_lf_content {line : ChainLine} (flush : IsFlush line.text) : '\n' ∉ line.content := by
  intro member
  rcases List.mem_append.mp member with space | inside
  · exact absurd (List.eq_of_mem_replicate space) (by decide)
  · exact flush.no_lf inside

theorem apart_lines {lines : List ChainLine} (flush : ∀ line ∈ lines, IsFlush line.text) :
    Apart '\n' (lines.map ChainLine.content) :=
  apart_map.mpr fun line member => no_lf_content (flush line member)

/-- Without its carriage returns, either kind of break is a line feed. -/
def withoutReturns (text : String) : List Char := text.toList.filter (· ≠ '\r')

theorem withoutReturns_append (front back : String) :
    withoutReturns (front ++ back) = withoutReturns front ++ withoutReturns back := by
  unfold withoutReturns
  rw [String.toList_append, List.filter_append]

theorem withoutReturns_of_no_cr {text : String} (clean : '\r' ∉ text.toList) : withoutReturns text = text.toList := by
  apply List.filter_eq_self.mpr
  intro c member
  exact decide_eq_true fun cr => clean (cr ▸ member)

theorem withoutReturns_shown (ends : newLine = "\n" ∨ newLine = "\r\n") {line : ChainLine}
    (flush : IsFlush line.text) :
    withoutReturns (line.deeper.shown newLine 0) = '\n' :: line.deeper.content := by
  have break_eq : withoutReturns newLine = ['\n'] := by
    rcases ends with rfl | rfl <;> rfl
  have spaces (n : Nat) : withoutReturns (String.ofList (List.replicate n ' ')) = List.replicate n ' ' := by
    rw [withoutReturns_of_no_cr, String.toList_ofList]
    rw [String.toList_ofList]
    exact fun cr => absurd (List.eq_of_mem_replicate cr) (by decide)
  unfold ChainLine.shown ChainLine.content
  rw [if_neg (by simp [ChainLine.deeper]), withoutReturns_append, withoutReturns_append, break_eq, spaces, Nat.zero_add,
    withoutReturns_of_no_cr (show '\r' ∉ line.deeper.text.toList from flush.no_cr)]
  rfl

theorem withoutReturns_join (ends : newLine = "\n" ∨ newLine = "\r\n") {below : List ChainLine}
    (flush : ∀ line ∈ below, IsFlush line.text) :
    withoutReturns (String.join ((below.map ChainLine.deeper).map (·.shown newLine 0))) =
      led '\n' ((below.map ChainLine.deeper).map ChainLine.content) := by
  induction below with
  | nil => rfl
  | cons line below ih =>
    rw [List.forall_mem_cons] at flush
    rw [List.map_cons, List.map_cons, List.map_cons, String.join_cons, withoutReturns_append,
      withoutReturns_shown ends flush.1, ih flush.2, led_cons]
    rfl

/-- A flattened chain has the lines of its listing. -/
theorem withoutReturns_flatten (ends : newLine = "\n" ∨ newLine = "\r\n") (chain : m.IsChain)
    (flush : ∀ line ∈ m.lines, IsFlush line.text) :
    withoutReturns (m.flatten newLine 0) = ['\n'].intercalate (m.lines.map ChainLine.content) := by
  have whole : m.flatten newLine 0 = String.join (m.lines.map (·.shown newLine 0)) := flatten_eq_join chain newLine 0
  obtain @⟨head, code, category, next, below⟩ := chain
  rw [lines, List.forall_mem_cons, List.forall_mem_map] at flush
  have start : withoutReturns (ChainLine.shown newLine 0 ⟨0, head⟩) = ChainLine.content ⟨0, head⟩ :=
    withoutReturns_of_no_cr flush.1.no_cr
  rw [whole, lines, List.map_cons, String.join_cons, withoutReturns_append, start,
    withoutReturns_join ends flush.2, List.map_cons, intercalate_eq_led]

/-- Chains of plain texts are flattened alike exactly if they have the same texts in the same nesting. -/
theorem flatten_eq_iff (ends : newLine = "\n" ∨ newLine = "\r\n") (chain : m.IsChain) (chain' : m'.IsChain)
    (flush : ∀ line ∈ m.lines, IsFlush line.text) (flush' : ∀ line ∈ m'.lines, IsFlush line.text) :
    m.flatten newLine 0 = m'.flatten newLine 0 ↔ SameTexts m m' := by
  constructor
  · intro same
    have listed := congrArg withoutReturns same
    rw [withoutReturns_flatten ends chain flush, withoutReturns_flatten ends chain' flush'] at listed
    have both : m.lines.map ChainLine.content = [] ↔ m'.lines.map ChainLine.content = [] := by
      obtain ⟨_⟩ := chain
      obtain ⟨_⟩ := chain'
      simp [lines]
    have contents := intercalate_inj (apart_lines flush) (apart_lines flush') both listed
    have lines_eq : m.lines = m'.lines := eq_of_map_eq
      (fun line member line' member' => content_inj (flush line member) (flush' line' member')) contents
    have ended : Starts [] := fun _ member => absurd member (by simp)
    exact (lines_append_inj chain chain' ended ended (by rw [lines_eq])).1
  · intro same
    have whole := flatten_eq_join chain newLine 0
    have whole' := flatten_eq_join chain' newLine 0
    rw [← same.lines_eq chain] at whole'
    exact whole.trans whole'.symm

theorem flatten_eq_iff_codes :
    flatten "\r\n" 0 (.chain "" 1 .error [.chain "a b" 2 .error [.chain "" 3 .error []], .chain "c" 4 .error []]) =
      flatten "\r\n" 0
        (.chain "" 5 .message [.chain "a b" 6 .warning [.chain "" 7 .error []], .chain "c" 4 .error []]) ∧
    SameTexts (.chain "" 1 .error [.chain "a b" 2 .error [.chain "" 3 .error []], .chain "c" 4 .error []])
      (.chain "" 5 .message [.chain "a b" 6 .warning [.chain "" 7 .error []], .chain "c" 4 .error []]) := by
  have written : flatten "\r\n" 0
      (.chain "" 1 .error [.chain "a b" 2 .error [.chain "" 3 .error []], .chain "c" 4 .error []]) =
    flatten "\r\n" 0
      (.chain "" 5 .message [.chain "a b" 6 .warning [.chain "" 7 .error []], .chain "c" 4 .error []]) := by
    decide
  exact ⟨written, (flatten_eq_iff (.inr rfl) (by simp) (by simp) (by decide) (by decide)).mp written⟩

end Message

end CompilerAdapter
