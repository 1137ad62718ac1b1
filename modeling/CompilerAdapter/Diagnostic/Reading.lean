import CompilerAdapter.Diagnostic.Basic
import CompilerAdapter.Schema.Check

/-! # Reading diagnostics and reports

A document is read if it follows the schema; fields that the schema does not know are passed over. -/
namespace CompilerAdapter

inductive Subject where
  | diagnostic
  | report
  deriving DecidableEq, Repr

inductive ReadingError where
  | notAnObject (subject : Subject) (typeName : String)
  | missingFields (subject : Subject) (names : List String)
  | invalid (subject : Subject) (violation : Violation)

namespace ReadingError

def message : ReadingError → String
  | .notAnObject .diagnostic typeName => "Expected a mapping for a diagnostic, got " ++ typeName
  | .notAnObject .report typeName => "Expected a mapping for a diagnostics report, got " ++ typeName
  | .missingFields .diagnostic names => "Diagnostic is missing fields: " ++ ", ".intercalate names
  | .missingFields .report names => "Diagnostics report is missing fields: " ++ ", ".intercalate names
  | .invalid .diagnostic violation => "Invalid diagnostic: " ++ violation.message
  | .invalid .report violation => "Invalid diagnostics report: " ++ violation.message

def fields : ReadingError → List String
  | .notAnObject _ _ => []
  | .missingFields _ names => names
  | .invalid _ violation => violation.fields

end ReadingError

namespace Diagnostic

def fieldNames : List String := ["code", "fileName", "message", "line", "column"]

def positiveSchema : Schema := .of (some .integer) [.atLeast 1]

def textSchema : Schema := .of (some .string) []

def schema : Schema :=
  .of (some .object)
    [.required fieldNames,
     .fields
      [("code", positiveSchema), ("fileName", textSchema), ("message", textSchema), ("line", positiveSchema),
       ("column", positiveSchema)]]

end Diagnostic

namespace Report

def fieldNames : List String := ["syntacticErrors", "semanticErrors"]

def schema : Schema :=
  let diagnostics := Schema.of (some .list) [.items Diagnostic.schema]
  .of (some .object)
    [.required fieldNames, .fields [("syntacticErrors", diagnostics), ("semanticErrors", diagnostics)]]

end Report

def checkDocument (subject : Subject) (names : List String) (schema : Schema) (v : Value) :
    Except ReadingError Unit :=
  match v with
  | .object fields =>
    match names.filter fun name => !Fields.has fields (.string name) with
    | [] =>
      match schema.violation? v with
      | some violation => .error (.invalid subject violation)
      | none => .ok ()
    | missing => .error (.missingFields subject missing)
  | other => .error (.notAnObject subject other.typeName)

def Diagnostic.read (v : Value) : Except ReadingError Diagnostic :=
  (checkDocument .diagnostic Diagnostic.fieldNames Diagnostic.schema v).map fun _ => .ofValue v

/-- The report that a document holds. Each diagnostic in it is then read as a document of its own. -/
def Report.read (v : Value) : Except ReadingError Report := do
  checkDocument .report Report.fieldNames Report.schema v
  let syntactic ← (Report.entries v "syntacticErrors").mapM Diagnostic.read
  let semantic ← (Report.entries v "semanticErrors").mapM Diagnostic.read
  return ⟨syntactic, semantic⟩

end CompilerAdapter
