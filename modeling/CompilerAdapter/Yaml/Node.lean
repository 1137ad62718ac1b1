import CompilerAdapter.Yaml.Fault
import CompilerAdapter.Yaml.Tag

/-! # Nodes

The nodes of a text, which refer to each other by number. One node may lie in several others, and in itself, because an
alias stands for the very node that has its anchor. -/
namespace CompilerAdapter.Yaml

inductive Content where
  | scalar (text : List Char)
  | sequence (items : List Nat)
  | mapping (entries : List (Nat × Nat))
  deriving Inhabited

structure Node where
  tag : Tag
  content : Content

def Node.absent : Node := ⟨.null, .scalar []⟩

structure Graph where
  nodes : Array Node

namespace Graph

def node (g : Graph) (id : Nat) : Node := g.nodes.getD id .absent

def push (g : Graph) (node : Node) : Graph := ⟨g.nodes.push node⟩

def replace (g : Graph) (id : Nat) (node : Node) : Graph := ⟨g.nodes.setIfInBounds id node⟩

def isMergeKey (g : Graph) (id : Nat) : Bool := (g.node id).tag == .merge

def isDefaultKey (g : Graph) (id : Nat) : Bool := (g.node id).tag == .default

/-- The text of a scalar. A mapping with a key for a default value stands for that value. -/
def text (g : Graph) : Nat → Nat → Except Fault (List Char)
  | 0, _ => .error .endless
  | fuel + 1, id =>
    match (g.node id).content with
    | .scalar text => .ok text
    | .sequence _ => .error .malformed
    | .mapping entries =>
      match entries.find? fun entry => g.isDefaultKey entry.1 with
      | some (_, value) => g.text fuel value
      | none => .error .malformed

/-- The text of a scalar; a search that comes to more steps than there are nodes does not end. -/
def scalarText (g : Graph) (id : Nat) : Except Fault (List Char) := g.text g.nodes.size id

end Graph

end CompilerAdapter.Yaml
