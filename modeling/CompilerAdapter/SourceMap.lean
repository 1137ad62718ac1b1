import CompilerAdapter.Json.Reader
import CompilerAdapter.Settings

/-! # Source maps

A source map is made to name exactly one source, whose text it embeds. Its other fields stay as they are. Several
sources that are given up are logged. -/
namespace CompilerAdapter.SourceMap

/-- Why a source map was not prepared. A text that holds no object is told by the path of its source. -/
inductive Error where
  | malformed (source : String) (fault : Json.Fault) (text : List Char) (offset : Nat)
  | notAnObject (source : String) (typeName : String)
  | numeralTooLong (digits : Nat)
  | sourcesWithoutLength (typeName : String)

namespace Error

def message : Error → String
  | .malformed _ fault text offset => "Invalid source map JSON: " ++ Json.faultMessage text fault offset
  | .notAnObject _ typeName => "Source map must be a JSON object, got " ++ typeName
  | .numeralTooLong digits => Numeral.tooLongMessage digits
  | .sourcesWithoutLength typeName => "object of type '" ++ typeName ++ "' has no len()"

def source? : Error → Option String
  | .malformed source _ _ _ | .notAnObject source _ => some source
  | .numeralTooLong _ | .sourcesWithoutLength _ => none

end Error

structure Prepared where
  fields : Fields
  log : List LogEntry

def withSource (fields : Fields) (content path : String) : Fields :=
  Fields.put (Fields.put fields (.string "sourcesContent") (.list [.string content]))
    (.string "sources") (.list [.string path])

/-- How many sources a map names. A value that counts as absent names none, and one without a length is refused. -/
def sourceCount (fields : Fields) : Except Error Nat :=
  match (Fields.get? fields (.string "sources")).filter Value.isPresent with
  | none => .ok 0
  | some sources =>
    match sources.size? with
    | some n => .ok n
    | none => .error (.sourcesWithoutLength sources.typeName)

def prepare (text content path : String) : Except Error Prepared :=
  match Json.read text.toList with
  | .error (.malformed fault offset) => .error (.malformed path fault text.toList offset)
  | .error (.numeralTooLong digits) => .error (.numeralTooLong digits)
  | .ok (.object fields) =>
    (sourceCount fields).map fun count =>
      { fields := withSource fields content path
        log := if 1 < count then [.collapsedSources count path] else [] }
  | .ok other => .error (.notAnObject path other.typeName)

end CompilerAdapter.SourceMap
