import CompilerAdapter.Yaml.Node

/-! # Merging mappings

A merging key takes in the entries of another mapping, or of several of which the earlier ones win. What is taken in
comes before the entries that a mapping has of its own, and the merging keys are gone afterwards. -/
namespace CompilerAdapter.Yaml.Graph

abbrev Merging := StateT Graph (Except Fault)

def entries (g : Graph) (id : Nat) : List (Nat × Nat) :=
  match (g.node id).content with
  | .mapping entries => entries
  | _ => []

def setEntries (g : Graph) (id : Nat) (entries : List (Nat × Nat)) : Graph :=
  g.replace id { g.node id with content := .mapping entries }

def takeMergeKey (id : Nat) : Merging (Option Nat) := do
  let g ← get
  let entries := g.entries id
  match entries.find? fun entry => g.isMergeKey entry.1 with
  | none => return none
  | some entry =>
    set (g.setEntries id (entries.eraseP fun entry => g.isMergeKey entry.1))
    return some entry.2

def asText (g : Graph) (key : Nat) : Graph :=
  if g.isDefaultKey key then g.replace key { g.node key with tag := .str } else g

def prepend (id : Nat) (merged : List (Nat × Nat)) : Merging (List (Nat × Nat)) := do
  let g ← get
  let own := g.entries id
  set ((own.foldl (fun g entry => g.asText entry.1) g).setEntries id (merged ++ own))
  return merged ++ own

/-- Takes the merging keys out of a mapping one after another, and gives the entries that they bring in. The mappings
that are merged in are freed of their own merging keys first; each step takes one key away for good. -/
def mergedEntries : Nat → Nat → Merging (List (Nat × Nat))
  | 0, _ => throw .malformed
  | fuel + 1, id => do
    match ← takeMergeKey id with
    | none => return []
    | some source =>
      let flattened (id : Nat) : Merging (List (Nat × Nat)) := do
        match ((← get).node id).content with
        | .mapping _ => prepend id (← mergedEntries fuel id)
        | _ => throw .malformed
      let taken ←
        match ((← get).node source).content with
        | .sequence items => items.foldlM (fun taken item => return (← flattened item) ++ taken) []
        | _ => flattened source
      return taken ++ (← mergedEntries fuel id)

def keyCount (g : Graph) : Nat := g.nodes.foldl (fun count node =>
  match node.content with
  | .mapping entries => count + entries.length
  | _ => count) 0

def flatten (id : Nat) : Merging (List (Nat × Nat)) := do
  prepend id (← mergedEntries ((← get).keyCount + 1) id)

end CompilerAdapter.Yaml.Graph
