import CompilerAdapter.Diagnostic.Message

/-!
# Chains as listings

A chain is read as the list of its texts in pre-order, each at its depth below the head: `lines`. Flattened, it is this
listing with each text on a line of its own, two spaces further in for each level: `flatten_eq_join`.
-/

namespace CompilerAdapter

/-- A text of a chain, and how deep below the head it stands. -/
structure ChainLine where
  depth : Nat
  text : String
  deriving DecidableEq, Repr

namespace ChainLine

def deeper (line : ChainLine) : ChainLine := { line with depth := line.depth + 1 }

/-- The text of a line in a listing that starts at a level. At level zero a text goes on where it stands. -/
def shown (newLine : String) (level : Nat) (line : ChainLine) : String :=
  if level + line.depth = 0 then line.text
  else newLine ++ String.ofList (List.replicate (2 * (level + line.depth)) ' ') ++ line.text

theorem shown_deeper (newLine : String) (level : Nat) (line : ChainLine) :
    line.deeper.shown newLine level = line.shown newLine (level + 1) := by
  have same : level + (line.depth + 1) = level + 1 + line.depth := by omega
  unfold shown deeper
  rw [same]

end ChainLine

namespace Message

variable {newLine : String} {message : Message} {messages : List Message}

/-- A head, and below it nothing but such chains. -/
inductive IsChain : Message → Prop where
  | chain {head : String} {code : Int} {category : Category} {next : List Message}
      (below : ∀ message ∈ next, IsChain message) : IsChain (.chain head code category next)

@[simp] theorem isChain_iff {head : String} {code : Int} {category : Category} {next : List Message} :
    IsChain (.chain head code category next) ↔ ∀ message ∈ next, IsChain message := by
  constructor
  · rintro ⟨below⟩
    exact below
  · exact IsChain.chain

mutual

/-- The texts of a chain in pre-order. -/
def lines : Message → List ChainLine
  | .absent => []
  | .text _ => []
  | .chain head _ _ next => ⟨0, head⟩ :: (linesOfAll next).map ChainLine.deeper

def linesOfAll : List Message → List ChainLine
  | [] => []
  | message :: rest => lines message ++ linesOfAll rest

end

theorem flattenAll_eq_join {level : Nat}
    (each : ∀ message ∈ messages,
      message.flatten newLine level = String.join (message.lines.map (·.shown newLine level))) :
    flattenAll newLine level messages = String.join ((linesOfAll messages).map (·.shown newLine level)) := by
  induction messages with
  | nil => simp [flattenAll, linesOfAll]
  | cons message rest ih =>
    rw [List.forall_mem_cons] at each
    rw [flattenAll, linesOfAll, each.1, ih each.2, List.map_append, String.join_append]

theorem lineStart_append (newLine text : String) (level : Nat) :
    lineStart newLine level ++ text = ChainLine.shown newLine level ⟨0, text⟩ := by
  unfold lineStart ChainLine.shown
  dsimp only
  rw [Nat.add_zero]
  by_cases outermost : level = 0
  · subst outermost
    exact String.empty_append
  · rw [if_neg (by omega), if_neg outermost, Int.toNat_natCast]

/-- A flattened chain is its texts in pre-order, each on a line of its own at its level. -/
theorem flatten_eq_join (chain : message.IsChain) (newLine : String) (level : Nat) :
    message.flatten newLine level = String.join (message.lines.map (·.shown newLine level)) := by
  induction chain generalizing level with
  | @chain head code category next _ ih =>
    have below : flattenAll newLine (level + 1) next =
        String.join ((linesOfAll next).map (·.shown newLine (level + 1))) :=
      flattenAll_eq_join fun message member => ih message member (level + 1)
    rw [flatten, below, lineStart_append, lines, List.map_cons, String.join_cons, List.map_map]
    congr 3
    funext line
    exact (line.shown_deeper newLine level).symm

theorem flatten_eq_join_nested :
    IsChain (.chain "a" 2322 .error [.chain "" 0 .warning [.chain "c" 1 .error []], .chain "d" 2 .message []]) ∧
    flatten "\r\n" 1 (.chain "a" 2322 .error
      [.chain "" 0 .warning [.chain "c" 1 .error []], .chain "d" 2 .message []]) =
      "\r\n  a\r\n    \r\n      c\r\n    d" := by
  have chain : IsChain (.chain "a" 2322 .error
      [.chain "" 0 .warning [.chain "c" 1 .error []], .chain "d" 2 .message []]) := by simp
  exact ⟨chain, (flatten_eq_join chain "\r\n" 1).trans (by decide)⟩

end Message

end CompilerAdapter
