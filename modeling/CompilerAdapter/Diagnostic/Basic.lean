import CompilerAdapter.Document.Display

/-! # Diagnostics and reports

A diagnostic in its final form names a file and a place in it, counted from one. Its numbers are kept as they were
written, whole or with a point. A report has those of one compilation, of its syntax and of its meaning. -/
namespace CompilerAdapter

structure Diagnostic where
  code : Number
  fileName : String
  message : String
  line : Number
  column : Number
  deriving DecidableEq, Repr

namespace Diagnostic

/-- The diagnostic on one line: the place, the code and the message. That a number with too many digits has no text is
left out: it is shown in full. -/
def format (d : Diagnostic) : String :=
  let shown (n : Number) := String.ofList (n.text displayStyle)
  d.fileName ++ ":" ++ shown d.line ++ ":" ++ shown d.column ++ ": TS" ++ shown d.code ++ ": " ++ d.message

def toValue (d : Diagnostic) : Value :=
  .object
    [(.string "code", .number d.code),
     (.string "fileName", .string d.fileName),
     (.string "message", .string d.message),
     (.string "line", .number d.line),
     (.string "column", .number d.column)]

def ofValue (v : Value) : Diagnostic :=
  let number (name : String) : Number :=
    match v.field? name with
    | some (.scalar (.number n)) => n
    | _ => .int 0
  let string (name : String) : String :=
    match v.field? name with
    | some (.scalar (.string s)) => s
    | _ => ""
  { code := number "code", fileName := string "fileName", message := string "message",
    line := number "line", column := number "column" }

end Diagnostic

structure Report where
  syntactic : List Diagnostic
  semantic : List Diagnostic
  deriving DecidableEq, Repr

namespace Report

def all (r : Report) : List Diagnostic := r.syntactic ++ r.semantic

def hasErrors (r : Report) : Bool := !r.semantic.isEmpty || !r.syntactic.isEmpty

def hasUnresolvedModules (r : Report) (code : Number) : Bool := r.semantic.any (·.code.equal code)

def format (r : Report) : String := "\n".intercalate (r.all.map Diagnostic.format)

def toValue (r : Report) : Value :=
  .object
    [(.string "syntacticErrors", .list (r.syntactic.map Diagnostic.toValue)),
     (.string "semanticErrors", .list (r.semantic.map Diagnostic.toValue))]

def entries (v : Value) (name : String) : List Value :=
  match v.field? name with
  | some (.list items) => items
  | _ => []

end Report

/-- Whether a compilation failed; one without a report did. -/
def hasErrors : Option Report → Bool
  | none => true
  | some report => report.hasErrors

end CompilerAdapter
