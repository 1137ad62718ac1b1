import CompilerAdapter.Schema.Basic

/-! # Violations

What is wrong with a document that does not follow its schema, and where. -/
namespace CompilerAdapter

inductive Violation.Cause where
  | wrongKind (value : Value) (expected : Kind)
  /-- A required field is missing; `absent` lists all that are, in the order of the schema. -/
  | missing (name : String) (absent : List String)
  | unexpected (keys : List Scalar)
  | isEmpty (value : Value)
  | unmatched (text : String) (pattern : Pattern)
  | notAmong (value : Value) (choices : List String)
  | below (value : Number) (minimum : Int)

/-- A broken rule. The path leads from the document to the value that breaks it by keys and by positions in lists;
`misfit` tells that the value is not of the kind its schema names, if it names one at all. -/
structure Violation where
  path : List Scalar
  cause : Violation.Cause
  misfit : Bool

namespace Violation

def Cause.isWritable : Cause → Bool
  | .wrongKind value _ | .isEmpty value | .notAmong value _ => value.isWritable
  | .unexpected keys => keys.all Scalar.isWritable
  | .below value _ => value.isWritable
  | .missing _ _ | .unmatched _ _ => true

def sortedKeys (keys : List Scalar) : List Scalar :=
  keys.mergeSort fun a b => !decide (String.ofList b.plain < String.ofList a.plain)

def joined (separator : String) (texts : List (List Char)) : List Char :=
  separator.toList.intercalate texts

def Cause.message : Cause → String
  | .wrongKind value expected => String.ofList value.display ++ " is not of type '" ++ expected.name ++ "'"
  | .missing name _ => String.ofList (quoted name.toList) ++ " is a required property"
  | .unexpected keys =>
    "Additional properties are not allowed (" ++
      String.ofList (joined ", " ((sortedKeys keys).map Scalar.display)) ++
      (if keys.length = 1 then " was" else " were") ++ " unexpected)"
  | .isEmpty value => String.ofList value.display ++ " should be non-empty"
  | .unmatched text pattern =>
    String.ofList (quoted text.toList) ++ " does not match " ++ String.ofList (quoted pattern.source)
  | .notAmong value choices =>
    String.ofList value.display ++ " is not one of " ++ String.ofList (Value.list (choices.map .string)).display
  | .below value minimum =>
    String.ofList (value.text displayStyle) ++ " is less than the minimum of " ++ String.ofList (intText minimum)

def message (v : Violation) : String :=
  v.cause.message ++
    if v.path.isEmpty then ""
    else " (at path: " ++ String.ofList (joined " -> " (v.path.map Scalar.plain)) ++ ")"

def fields (v : Violation) : List String :=
  let place := joined "." (v.path.map Scalar.plain)
  match v.cause with
  | .missing _ absent =>
    absent.map fun name => if place.isEmpty then name else String.ofList (place ++ '.' :: name.toList)
  | _ => if place.isEmpty then [] else [String.ofList place]

end Violation

end CompilerAdapter
