import CompilerAdapter.Calendar.Timestamp

/-! # Documents

The values that structured text holds. The fields of an object keep the order in which their keys first appear, and
a key may be any scalar. -/
namespace CompilerAdapter

inductive Scalar where
  | null
  | bool (value : Bool)
  | number (value : Number)
  | string (value : String)
  | bytes (content : List UInt8)
  | date (value : Date)
  | timestamp (value : Timestamp)
  deriving DecidableEq, Repr, Inhabited

inductive Value where
  | scalar (value : Scalar)
  | list (items : List Value)
  | object (fields : List (Scalar × Value))
  | pair (first second : Value)
  | set (members : List Scalar)
  /-- Stands for a list or an object around the place. -/
  | enclosing (isList : Bool)
  deriving Repr, Inhabited

abbrev Fields (α : Type := Value) := List (Scalar × α)

namespace Scalar

def asNumber? : Scalar → Option Number
  | .bool b => some (.int (if b then 1 else 0))
  | .number n => some n
  | _ => none

/-- Whether two scalars name the same field. Numbers do when they have the same value, or the same mark if they are not
numbers. Timestamps with an offset do when they mean the same instant. -/
def sameKey (a b : Scalar) : Bool :=
  match a.asNumber?, b.asNumber?, a, b with
  | some m, some n, _, _ => m == n || m.equal n
  | none, none, .timestamp s, .timestamp t => s.isComparable t && s.instant == t.instant
  | none, none, _, _ => a == b
  | _, _, _, _ => false

end Scalar

namespace Fields

variable {α : Type}

def get? : Fields α → Scalar → Option α
  | [], _ => none
  | (k, v) :: rest, key => if k.sameKey key then some v else get? rest key

def has (fields : Fields α) (key : Scalar) : Bool := (fields.get? key).isSome

def put : Fields α → Scalar → α → Fields α
  | [], key, value => [(key, value)]
  | (k, v) :: rest, key, value =>
    if k.sameKey key then (k, value) :: rest else (k, v) :: put rest key value

/-- The fields that a sequence of entries leaves: a repeated key keeps its first place and its last value. -/
def ofEntries (entries : List (Scalar × α)) : Fields α :=
  entries.foldl (fun fields entry => fields.put entry.1 entry.2) []

end Fields

namespace Value

def null : Value := .scalar .null

def string (s : String) : Value := .scalar (.string s)

def number (n : Number) : Value := .scalar (.number n)

def int (n : Int) : Value := .number (.int n)

def field? (v : Value) (name : String) : Option Value :=
  match v with
  | .object fields => Fields.get? fields (.string name)
  | _ => none

def isPresent : Value → Bool
  | .scalar .null => false
  | .scalar (.bool b) => b
  | .scalar (.number n) => !n.equal (.int 0)
  | .scalar (.string s) => !s.isEmpty
  | .scalar (.bytes content) => !content.isEmpty
  | .scalar (.date _) | .scalar (.timestamp _) => true
  | .list items => !items.isEmpty
  | .object fields => !fields.isEmpty
  | .set members => !members.isEmpty
  | .pair _ _ | .enclosing _ => true

def size? : Value → Option Nat
  | .scalar (.string s) => some s.length
  | .scalar (.bytes content) => some content.length
  | .scalar _ => none
  | .list items => some items.length
  | .object fields => some fields.length
  | .set members => some members.length
  | .pair _ _ => some 2
  | .enclosing _ => none

end Value

end CompilerAdapter
