import CompilerAdapter.Schema.Violation

/-! # Checking a document

All violations of a schema, in the order of its rules, and the one of them that is reported: a shallow one before a
deep one, then the greatest path, then a value that does not fit its schema at all, then the first. -/
namespace CompilerAdapter

variable {α : Type}

def Fields.others (fields : Fields α) (known : List String) : Fields α :=
  fields.filter fun field => !known.any fun name => (Scalar.string name).sameKey field.1

/-- The path to a field of the object at `path`. The field named by null has the path of the object. -/
def Violation.fieldPath (path : List Scalar) (key : Scalar) : List Scalar :=
  if key = .null then path else path ++ [key]

variable [Layered α]

mutual

def Schema.violations (path : List Scalar) (document : α) : Schema → List Violation
  | .of none rules => Rule.allViolations path document true rules
  | .of (some kind) rules =>
    let fits := kind.admits (Layered.layer document)
    (if fits then [] else [⟨path, .wrongKind (Layered.value document) kind, true⟩]) ++
      Rule.allViolations path document (!fits) rules

def Rule.allViolations (path : List Scalar) (document : α) (misfit : Bool) : List Rule → List Violation
  | [] => []
  | rule :: rest => rule.violations path document misfit ++ Rule.allViolations path document misfit rest

def Rule.violations (path : List Scalar) (document : α) (misfit : Bool) : Rule → List Violation
  | .required names =>
    match Layered.layer document with
    | .object fields =>
      let absent := names.filter fun name => !Fields.has fields (.string name)
      absent.map fun name => ⟨path, .missing name absent, misfit⟩
    | _ => []
  | .fields known =>
    match Layered.layer document with
    | .object fields => Rule.fieldViolations path fields known
    | _ => []
  | .others known schema =>
    match Layered.layer document with
    | .object fields =>
      (Fields.others fields known).flatMap fun field =>
        schema.violations (Violation.fieldPath path field.1) field.2
    | _ => []
  | .closed known =>
    match Layered.layer document with
    | .object fields =>
      match (Fields.others fields known).map (·.1) with
      | [] => []
      | keys => [⟨path, .unexpected keys, misfit⟩]
    | _ => []
  | .keys schema =>
    match Layered.layer document with
    | .object fields => fields.flatMap fun field => schema.violations path (Layered.ofScalar field.1 : α)
    | _ => []
  | .nonEmpty =>
    match Layered.layer document with
    | .object [] => [⟨path, .isEmpty (.object []), misfit⟩]
    | .scalar (.string "") => [⟨path, .isEmpty (.string ""), misfit⟩]
    | _ => []
  | .items schema =>
    match Layered.layer document with
    | .list items =>
      items.zipIdx.flatMap fun item => schema.violations (path ++ [.number (.int item.2)]) item.1
    | _ => []
  | .matching pattern =>
    match Layered.layer document with
    | .scalar (.string text) =>
      if pattern.test (· == ·) text.toList then [] else [⟨path, .unmatched text pattern, misfit⟩]
    | _ => []
  | .oneOf choices =>
    match Layered.layer document with
    | .scalar (.string text) =>
      if choices.contains text then [] else [⟨path, .notAmong (.string text) choices, misfit⟩]
    | _ => [⟨path, .notAmong (Layered.value document) choices, misfit⟩]
  | .atLeast minimum =>
    match Layered.layer document with
    | .scalar (.number n) => if n.less (.int minimum) then [⟨path, .below n minimum, misfit⟩] else []
    | _ => []

def Rule.fieldViolations (path : List Scalar) (fields : Fields α) : List (String × Schema) → List Violation
  | [] => []
  | (name, schema) :: rest =>
    (match Fields.get? fields (.string name) with
      | some part => schema.violations (path ++ [.string name]) part
      | none => []) ++ Rule.fieldViolations path fields rest

end

namespace Scalar

def bytesExceed : List UInt8 → List UInt8 → Bool
  | _ :: _, [] => true
  | a :: as, b :: bs => if a = b then bytesExceed as bs else decide (b < a)
  | [], _ => false

def exceeds? (a b : Scalar) : Option Bool :=
  match a, b with
  | .string s, .string t => some (decide (t < s))
  | .bytes s, .bytes t => some (bytesExceed s t)
  | .date s, .date t => some (decide (t.number < s.number))
  | .timestamp s, .timestamp t => if s.isComparable t then some (decide (t.instant < s.instant)) else none
  | _, _ =>
    match a.asNumber?, b.asNumber? with
    | some m, some n => some (n.less m)
    | _, _ => none

end Scalar

namespace Violation

def parting? : List Scalar → List Scalar → Option (Scalar × Scalar)
  | a :: as, b :: bs => if a.sameKey b then parting? as bs else some (a, b)
  | _, _ => none

def precedes (new best : Violation) : Bool :=
  if new.path.length = best.path.length then
    match parting? new.path best.path with
    | some (a, b) => a.exceeds? b = some true
    | none => new.misfit && !best.misfit
  else decide (new.path.length < best.path.length)

/-- Two keys that keep the violations from being compared, because there is no order between them. -/
def clash? (new best : Violation) : Option (Scalar × Scalar) :=
  if new.path.length = best.path.length then
    (parting? new.path best.path).filter fun pair => (pair.1.exceeds? pair.2).isNone
  else none

def bestFrom (best : Violation) (rest : List Violation) : Violation :=
  rest.foldl (fun best new => if new.precedes best then new else best) best

def best? : List Violation → Option Violation
  | [] => none
  | first :: rest => some (bestFrom first rest)

/-- What keeps a violation from being reported, or from being compared with the best one before it. -/
inductive Obstacle where
  | unwritable
  | clash (left right : Scalar)

def obstacleTo? (new best : Violation) : Option Obstacle :=
  if new.cause.isWritable then (new.clash? best).map fun (left, right) => .clash left right else some .unwritable

def obstacleFrom? (best : Violation) : List Violation → Option Obstacle
  | [] => none
  | new :: rest => (new.obstacleTo? best).or (obstacleFrom? (if new.precedes best then new else best) rest)

def obstacle? : List Violation → Option Obstacle
  | [] => none
  | first :: rest => if first.cause.isWritable then obstacleFrom? first rest else some .unwritable

end Violation

def Schema.violation? (schema : Schema) (document : α) : Option Violation :=
  Violation.best? (schema.violations [] document)

end CompilerAdapter
