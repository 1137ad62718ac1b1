import CompilerAdapter.Schema.Check

/-! # Settings and log entries -/
namespace CompilerAdapter

structure Settings where
  newLine : String := "\n"
  caseSensitive : Bool := true
  deriving DecidableEq, Repr

namespace Settings

def schema : Schema :=
  .of (some .object)
    [.fields
      [("new_line", .of none [.oneOf ["\n", "\r\n"]]),
       ("case_sensitive_file_names", .of (some .boolean) [])],
     .closed ["new_line", "case_sensitive_file_names"]]

/-- The settings in a document that follows the schema; what it leaves out keeps its default. -/
def ofValue (v : Value) : Settings :=
  let defaults : Settings := {}
  { newLine :=
      match v.field? "new_line" with
      | some (.scalar (.string s)) => s
      | _ => defaults.newLine
    caseSensitive :=
      match v.field? "case_sensitive_file_names" with
      | some (.scalar (.bool b)) => b
      | _ => defaults.caseSensitive }

def display (s : Settings) : String :=
  "Settings(new_line=" ++ String.ofList (quoted s.newLine.toList) ++ ", case_sensitive_file_names=" ++
    String.ofList (Scalar.bool s.caseSensitive).display ++ ")"

end Settings

/-! ### Log entries -/

inductive LogEntry where
  | collapsedSources (count : Nat) (path : String)
  | droppedDiagnostic (code : Int)
  | loadedFile (file : String)
  | readSettings (file : String) (found : Settings)
  deriving DecidableEq, Repr

/-- Only codes that can be written are logged as dropped. -/
def LogEntry.text : LogEntry → String
  | .collapsedSources count path =>
    "Collapsing " ++ String.ofList (Nat.toDigits 10 count) ++ " sources into " ++ path
  | .droppedDiagnostic code => "Dropping diagnostic TS" ++ String.ofList (intText code) ++ " with no associated file"
  | .loadedFile file => "Loaded " ++ file
  | .readSettings file found => "Settings from " ++ file ++ ": " ++ found.display

end CompilerAdapter
