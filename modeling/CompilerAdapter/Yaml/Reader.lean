import CompilerAdapter.Yaml.Document
import CompilerAdapter.Yaml.Graph
import CompilerAdapter.Yaml.Merge
import CompilerAdapter.Yaml.ScalarValue

/-! # Reading YAML

The document that a YAML text holds. Scalars get their values when they are met; collections are filled afterwards, in
the order in which they were met, so a fault in an outer collection comes before one in an inner one. A repeated key
keeps its first place and its last value. -/
namespace CompilerAdapter.Yaml

/-- What has been made of the nodes so far: by their numbers, the parts that they have become and the collections that
have been filled, and in order, the nodes of the collections that are yet to be filled. -/
structure Reading where
  graph : Graph
  parts : Array (Option Part)
  collections : Collections
  waiting : List Nat

namespace Reading

abbrev Reader := StateT Reading (Except Fault)

def start (graph : Graph) : Reading where
  graph := graph
  parts := graph.nodes.map fun _ => none
  collections := ⟨graph.nodes.map fun _ => default⟩
  waiting := []

/-! ### Parts -/

def scalarOf (g : Graph) (id : Nat) : Except Fault Scalar := do
  let node := g.node id
  match node.tag with
  | .null => do
    let _ ← g.scalarText id
    return .null
  | .bool => return .bool (← ScalarValue.truth (← g.scalarText id))
  | .int => return .number (.int (← ScalarValue.integer (← g.scalarText id)))
  | .float => return .number (.float (← ScalarValue.float (id + 1) (← g.scalarText id)))
  | .str => return .string (String.ofList (← g.scalarText id))
  | .binary => return .bytes (← ScalarValue.bytes (← g.scalarText id))
  | .timestamp => do
    let _ ← g.scalarText id
    match node.content with
    | .scalar text => ScalarValue.moment text
    | _ => throw .timestampOfCollection
  | _ => throw .malformed

def meet (id : Nat) : Reader Part := do
  let r ← get
  match (r.graph.node id).tag with
  | .seq | .pairs | .map | .set =>
    set { r with waiting := r.waiting ++ [id] }
    return .collection id
  | _ => return .scalar (← scalarOf r.graph id)

def part (id : Nat) : Reader Part := do
  match (← get).parts.getD id none with
  | some found => return found
  | none =>
    let made ← meet id
    modify fun r => { r with parts := r.parts.setIfInBounds id (some made) }
    return made

/-! ### Collections -/

def pair (id : Nat) : Reader Part := do
  match ((← get).graph.node id).content with
  | .mapping [(key, value)] => return .pair (← part key) (← part value)
  | _ => throw .malformed

def field (entry : Nat × Nat) : Reader (Scalar × Part) := do
  match ← part entry.1 with
  | .scalar key => return (key, ← part entry.2)
  | _ => throw .malformed

def fields (id : Nat) : Reader (Fields Part) := do
  let r ← get
  let (entries, graph) ← (Graph.flatten id).run r.graph
  set { r with graph := graph }
  return Fields.ofEntries (← entries.mapM field)

def contents (id : Nat) : Reader Collection := do
  let node := (← get).graph.node id
  match node.tag, node.content with
  | .seq, .sequence items => return .list (← items.mapM part)
  | .pairs, .sequence items => return .list (← items.mapM pair)
  | .map, .mapping _ => return .object (← fields id)
  | .set, .mapping _ => return .set ((← fields id).map (·.1))
  | _, _ => throw .malformed

/-- Fills the collections that wait, and those that are met on the way. Each node waits once at most. -/
def fill : Nat → Reader Unit
  | 0 => return ()
  | fuel + 1 => do
    let r ← get
    match r.waiting with
    | [] => return ()
    | id :: rest => do
      set { r with waiting := rest }
      let found ← contents id
      modify fun r => { r with collections := ⟨r.collections.all.setIfInBounds id found⟩ }
      fill fuel

def document (graph : Graph) (id : Nat) : Except Fault Document := do
  let build : Reader Part := do
    let root ← part id
    fill graph.nodes.size
    return root
  let (root, r) ← build.run (start graph)
  return ⟨r.collections, root⟩

end Reading

/-- Reads a text that holds one document. Without a document it holds nothing, which is null. -/
def read (text : List Char) : Except Fault Document := do
  match ← Graph.ofText text with
  | (graph, some root) => Reading.document graph root
  | (_, none) => return ⟨⟨#[]⟩, .scalar .null⟩

end CompilerAdapter.Yaml
