import CompilerAdapter.Schema.Basic

/-! # YAML documents

A document holds its collections by number, so that a collection can lie in several others, and in itself. -/
namespace CompilerAdapter.Yaml

inductive Part where
  | scalar (value : Scalar)
  | collection (id : Nat)
  | pair (first second : Part)
  deriving Inhabited

inductive Collection where
  | list (items : List Part)
  | object (fields : Fields Part)
  | set (members : List Scalar)
  deriving Inhabited

structure Collections where
  all : Array Collection

namespace Collections

def get (c : Collections) (id : Nat) : Collection := c.all.getD id (.list [])

/-- A part as a value, inside of the collections in `around`. -/
def value (c : Collections) : Nat → List Nat → Part → Value
  | _, _, .scalar s => .scalar s
  | 0, _, _ => .null
  | fuel + 1, around, .pair first second => .pair (c.value fuel around first) (c.value fuel around second)
  | fuel + 1, around, .collection id =>
    let inside := c.value fuel (id :: around)
    match c.get id with
    | .list items => if around.contains id then .enclosing true else .list (items.map inside)
    | .object fields =>
      if around.contains id then .enclosing false
      else .object (fields.map fun field => (field.1, inside field.2))
    | .set members => .set members

def layer (c : Collections) : Part → Layer Part
  | .scalar s => .scalar s
  | .pair _ _ => .other
  | .collection id =>
    match c.get id with
    | .list items => .list items
    | .object fields => .object fields
    | .set _ => .other

end Collections

structure Document where
  collections : Collections
  root : Part

namespace Document

/-- The document as a value. No more collections lie around a place than there are, and between two of them a pair. -/
def value (d : Document) : Value := d.collections.value (2 * d.collections.all.size + 2) [] d.root

def isNull (d : Document) : Bool :=
  match d.root with
  | .scalar .null => true
  | _ => false

instance : Layered Document where
  layer d :=
    match d.collections.layer d.root with
    | .scalar s => .scalar s
    | .list items => .list (items.map ({ d with root := · }))
    | .object fields => .object (fields.map fun field => (field.1, { d with root := field.2 }))
    | .other => .other
  value := Document.value
  ofScalar s := ⟨⟨#[]⟩, .scalar s⟩

end Document

end CompilerAdapter.Yaml
