import CompilerAdapter.Yaml.Node
import CompilerAdapter.Yaml.TokenStream

/-! # Building the graph

The nodes that the tokens of a text describe. Tokens are taken one at a time, so a fault in the token stream comes up
only when the building gets there. -/
namespace CompilerAdapter.Yaml.Graph

structure Building where
  stream : TokenStream
  graph : Graph
  anchors : List (List Char × Nat)

abbrev Builder := StateT Building (Except Fault)

abbrev Handles := List (List Char × List Char)

/-! ### Tokens -/

def peek : Builder (Option Token) := do
  match (← get).stream with
  | ⟨token :: _, _⟩ => return some token
  | ⟨[], some fault⟩ => throw fault
  | ⟨[], none⟩ => return none

def drop : Builder Unit :=
  modify fun b => { b with stream := { b.stream with tokens := b.stream.tokens.tail } }

def takes (token : Token) : Builder Bool := do
  if (← peek) = some token then drop; return true else return false

/-! ### Nodes -/

def add (anchor : Option (List Char)) (node : Node) : Builder Nat := do
  let b ← get
  let id := b.graph.nodes.size
  let anchors := (anchor.map fun name => (name, id)).toList ++ b.anchors
  set { b with graph := b.graph.push node, anchors := anchors }
  return id

def addAbsent : Builder Nat := add none .absent

def setContent (id : Nat) (content : Content) : Builder Unit :=
  modify fun b => { b with graph := b.graph.replace id { b.graph.node id with content := content } }

def lookUp (name : List Char) : Builder Nat := do
  match (← get).anchors.lookup name with
  | some id => return id
  | none => throw .malformed

/-! ### Properties -/

def expand (handles : Handles) (handle : Option (List Char)) (rest : List Char) : Builder (List Char) :=
  match handle with
  | none => return rest
  | some handle =>
    match handles.lookup handle with
    | some expansion => return expansion ++ rest
    | none => throw .malformed

structure Properties where
  anchor : Option (List Char)
  tag : Option (List Char)

def takeAnchor : Builder (Option (List Char)) := do
  match ← peek with
  | some (.anchor name) => drop; return some name
  | _ => return none

/-- The properties that are next. A tag is expanded once it is clear whether an anchor follows it. -/
def readProperties (handles : Handles) : Builder Properties := do
  let before ← takeAnchor
  match ← peek with
  | some (.tag handle rest) =>
    drop
    let anchor ← if before.isSome then pure before else takeAnchor
    return ⟨anchor, some (← expand handles handle rest)⟩
  | _ => return ⟨before, none⟩

/-- The tag of a scalar. An exclamation mark asks for the tag that the text has by its look. -/
def scalarTag (properties : Properties) (text : List Char) (plain : Bool) : Tag :=
  match properties.tag with
  | none => if plain then .ofText text else .str
  | some tag => if tag = ['!'] then .ofText text else .ofName tag

def collectionTag (properties : Properties) (standard : Tag) : Tag :=
  match properties.tag with
  | none => standard
  | some tag => if tag = ['!'] then standard else .ofName tag

def addSequence (properties : Properties) (items : Builder (List Nat)) : Builder Nat := do
  let id ← add properties.anchor ⟨collectionTag properties .seq, .sequence []⟩
  setContent id (.sequence (← items))
  return id

def addMapping (properties : Properties) (entries : Builder (List (Nat × Nat))) : Builder Nat := do
  let id ← add properties.anchor ⟨collectionTag properties .map, .mapping []⟩
  setContent id (.mapping (← entries))
  return id

mutual

/-- Builds the node that is next. Block collections are allowed if `block` holds, and a sequence that is indented no
more than its key if `indentless` holds. -/
def build (handles : Handles) (block indentless : Bool) : Nat → Builder Nat
  | 0 => throw .malformed
  | fuel + 1 => do
    if let some (.alias name) ← peek then
      drop
      return ← lookUp name
    let properties ← readProperties handles
    let next ← peek
    let startsNode :=
      match next with
      | some (.scalar _ _) | some .flowSequenceStart | some .flowMappingStart => true
      | some .blockSequenceStart | some .blockMappingStart => block
      | some .blockEntry => indentless
      | _ => false
    if !startsNode && properties.anchor.isNone && properties.tag.isNone then throw .malformed
    let anchors := (← get).anchors
    if properties.anchor.any fun name => (anchors.lookup name).isSome then throw .malformed
    match if startsNode then next else none with
    | some (.scalar text plain) =>
      drop
      add properties.anchor ⟨scalarTag properties text plain, .scalar text⟩
    | some .flowSequenceStart =>
      drop
      addSequence properties (flowItems handles true fuel)
    | some .flowMappingStart =>
      drop
      addMapping properties (flowEntries handles true fuel)
    | some .blockSequenceStart =>
      drop
      addSequence properties (blockItems handles fuel)
    | some .blockMappingStart =>
      drop
      addMapping properties (blockEntries handles fuel)
    | some _ => addSequence properties (indentlessItems handles fuel)
    | none => add properties.anchor ⟨scalarTag properties [] true, .scalar []⟩

def buildUnless (handles : Handles) (block indentless : Bool) (stops : List Token) : Nat → Builder Nat
  | 0 => throw .malformed
  | fuel + 1 => do
    match ← peek with
    | some token => if stops.contains token then addAbsent else build handles block indentless fuel
    | none => throw .malformed

def blockItems (handles : Handles) : Nat → Builder (List Nat)
  | 0 => throw .malformed
  | fuel + 1 => do
    if ← takes .blockEntry then
      let item ← buildUnless handles true false [.blockEntry, .blockEnd] fuel
      return item :: (← blockItems handles fuel)
    else if ← takes .blockEnd then return []
    else throw .malformed

def indentlessItems (handles : Handles) : Nat → Builder (List Nat)
  | 0 => throw .malformed
  | fuel + 1 => do
    if ← takes .blockEntry then
      let item ← buildUnless handles true false [.blockEntry, .key, .value, .blockEnd] fuel
      return item :: (← indentlessItems handles fuel)
    else return []

def blockEntries (handles : Handles) : Nat → Builder (List (Nat × Nat))
  | 0 => throw .malformed
  | fuel + 1 => do
    if ← takes .key then
      let key ← buildUnless handles true true [.key, .value, .blockEnd] fuel
      let value ←
        if ← takes .value then buildUnless handles true true [.key, .value, .blockEnd] fuel else addAbsent
      return (key, value) :: (← blockEntries handles fuel)
    else if ← takes .blockEnd then return []
    else throw .malformed

/-- The items of a flow sequence, up to its end. An item with a colon is a mapping of one entry. -/
def flowItems (handles : Handles) (first : Bool) : Nat → Builder (List Nat)
  | 0 => throw .malformed
  | fuel + 1 => do
    if ← takes .flowSequenceEnd then return []
    if !first then
      if !(← takes .flowEntry) then throw .malformed
    if ← takes .flowSequenceEnd then return []
    if ← takes .key then
      let item ← addMapping ⟨none, none⟩ do
        let key ← buildUnless handles false false [.value, .flowEntry, .flowSequenceEnd] fuel
        let value ←
          if ← takes .value then buildUnless handles false false [.flowEntry, .flowSequenceEnd] fuel else addAbsent
        return [(key, value)]
      return item :: (← flowItems handles false fuel)
    let item ← build handles false false fuel
    return item :: (← flowItems handles false fuel)

def flowEntries (handles : Handles) (first : Bool) : Nat → Builder (List (Nat × Nat))
  | 0 => throw .malformed
  | fuel + 1 => do
    if ← takes .flowMappingEnd then return []
    if !first then
      if !(← takes .flowEntry) then throw .malformed
    if ← takes .flowMappingEnd then return []
    if ← takes .key then
      let key ← buildUnless handles false false [.value, .flowEntry, .flowMappingEnd] fuel
      let value ←
        if ← takes .value then buildUnless handles false false [.flowEntry, .flowMappingEnd] fuel else addAbsent
      return (key, value) :: (← flowEntries handles false fuel)
    let key ← build handles false false fuel
    let value ← addAbsent
    return (key, value) :: (← flowEntries handles false fuel)

end

/-! ### Documents -/

structure Header where
  versioned : Bool
  handles : Handles

def standardHandles : Handles := [(['!'], ['!']), (['!', '!'], Tag.standard)]

def readHeader (header : Header) : Nat → Builder Handles
  | 0 => throw .malformed
  | fuel + 1 => do
    match ← peek with
    | some (.directive found) =>
      drop
      match found with
      | .version major =>
        if header.versioned || major != 1 then throw .malformed
        readHeader { header with versioned := true } fuel
      | .tagHandle handle expansion =>
        if (header.handles.lookup handle).isSome then throw .malformed
        readHeader { header with handles := (handle, expansion) :: header.handles } fuel
      | .other => readHeader header fuel
    | some .documentStart =>
      drop
      return header.handles ++ standardHandles
    | _ => throw .malformed

def skipEndMarks : Nat → Builder Unit
  | 0 => throw .malformed
  | fuel + 1 => do if ← takes .documentEnd then skipEndMarks fuel

/-- The root of the only document; none if there is no document. All steps of the building are bounded by `fuel`. -/
def buildDocument (fuel : Nat) : Builder (Option Nat) := do
  let root ←
    match ← peek with
    | none => return none
    | some (.directive _) | some .documentStart => do
      let handles ← readHeader ⟨false, []⟩ fuel
      match ← peek with
      | none | some (.directive _) | some .documentStart | some .documentEnd => addAbsent
      | _ => build handles true false fuel
    | _ => build standardHandles true false fuel
  skipEndMarks fuel
  if (← peek).isNone then return some root
  let _ ← readHeader ⟨false, []⟩ fuel
  throw .malformed

def ofText (text : List Char) : Except Fault (Graph × Option Nat) := do
  let stream := TokenStream.ofText text
  let (root, built) ← (buildDocument (3 * stream.tokens.length + 3)).run ⟨stream, ⟨#[]⟩, []⟩
  return (built.graph, root)

end CompilerAdapter.Yaml.Graph
