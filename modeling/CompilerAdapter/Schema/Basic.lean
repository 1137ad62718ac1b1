import CompilerAdapter.Document.Display
import CompilerAdapter.Regex.Basic

/-! # Schemas

What a document has to look like. A schema may name the kind of value it describes, and has rules in a fixed order. A
rule says nothing about values of a kind it is not meant for. A document is checked layer by layer, so it need not be
finite: a collection may lie inside of itself. -/
namespace CompilerAdapter

inductive Layer (α : Type) where
  | scalar (value : Scalar)
  | list (items : List α)
  | object (fields : Fields α)
  | other

/-- Documents that can be taken apart layer by layer. -/
class Layered (α : Type) where
  layer : α → Layer α
  /-- The document as it is shown, where a collection inside of itself is only marked. -/
  value : α → Value
  ofScalar : Scalar → α

instance : Layered Value where
  layer
    | .scalar s => .scalar s
    | .list items => .list items
    | .object fields => .object fields
    | .pair _ _ | .set _ | .enclosing _ => .other
  value v := v
  ofScalar s := .scalar s

inductive Kind where
  | object
  | list
  | string
  | integer
  | boolean
  deriving DecidableEq, Repr

namespace Kind

def name : Kind → String
  | .object => "object"
  | .list => "array"
  | .string => "string"
  | .integer => "integer"
  | .boolean => "boolean"

/-- Whether a document is of a kind, by its outermost layer. A number with an integral value is an integer, and a truth
value is not. -/
def admits {α : Type} : Kind → Layer α → Bool
  | .object, .object _ => true
  | .list, .list _ => true
  | .string, .scalar (.string _) => true
  | .integer, .scalar (.number n) => n.isIntegral
  | .boolean, .scalar (.bool _) => true
  | _, _ => false

end Kind

mutual

inductive Schema where
  | of (kind : Option Kind) (rules : List Rule)

inductive Rule where
  | required (names : List String)
  | fields (known : List (String × Schema))
  /-- All fields of an object but the known ones follow a schema. -/
  | others (known : List String) (schema : Schema)
  | closed (known : List String)
  | keys (schema : Schema)
  | nonEmpty
  | items (schema : Schema)
  /-- A string has a part that matches. -/
  | matching (pattern : Pattern)
  | oneOf (choices : List String)
  | atLeast (minimum : Int)

end

end CompilerAdapter
