import CompilerAdapter.Registry.Basic
import CompilerAdapter.Settings
import CompilerAdapter.Text.Encoding
import CompilerAdapter.Yaml.Reader

/-! # Loading settings and registries

A configuration file holds one YAML document that follows a schema. Its text is UTF-8, with every line end as a line
feed. -/
namespace CompilerAdapter.Configuration

inductive Source where
  | missing
  | directory
  | bytes (content : List UInt8)

inductive AccessFault where
  | missing
  | isDirectory
  deriving DecidableEq, Repr

def AccessFault.message (file : String) : AccessFault → String
  | .missing => "[Errno 2] No such file or directory: '" ++ file ++ "'"
  | .isDirectory => "[Errno 21] Is a directory: '" ++ file ++ "'"

def unifyLineEnds : List Char → List Char
  | [] => []
  | c :: rest =>
    if c = '\r' then
      if rest.head? = some '\n' then unifyLineEnds rest else '\n' :: unifyLineEnds rest
    else c :: unifyLineEnds rest

inductive Role where
  | settings
  | registry
  deriving DecidableEq, Repr

inductive LoadError where
  | unreadable (role : Role) (file : String) (fault : AccessFault)
  | undecodable (fault : Utf8.Fault)
  | notYaml (file : String)
  | valueless (fault : Yaml.Fault)
  /-- Two keys that the search for the violation to report comes upon have no order. -/
  | clash (left right : Scalar)
  /-- A whole number that the message would show has too many digits. -/
  | unwritable
  | invalid (file : String) (violation : Violation)
  | duplicateCode (file : String) (duplicate : Registry.Duplicate)

def clashMessage (left right : Scalar) : String :=
  match left, right with
  | .timestamp _, .timestamp _ => "can't compare offset-naive and offset-aware datetimes"
  | .timestamp _, .date _ | .date _, .timestamp _ => "can't compare datetime.datetime to datetime.date"
  | _, _ => "'>' not supported between instances of '" ++ left.typeName ++ "' and '" ++ right.typeName ++ "'"

def LoadError.message : LoadError → String
  | .unreadable .settings file fault => "Cannot read settings file " ++ file ++ ": " ++ fault.message file
  | .unreadable .registry file fault => "Cannot read code registry " ++ file ++ ": " ++ fault.message file
  | .undecodable fault => fault.message
  | .notYaml file => "Invalid YAML in " ++ file
  | .valueless fault => fault.message
  | .clash left right => clashMessage left right
  | .unwritable => Numeral.tooLongToWriteMessage
  | .invalid file violation => "Schema validation error in " ++ file ++ ": " ++ violation.message
  | .duplicateCode _ duplicate =>
    "Code " ++ String.ofList (duplicate.code.text displayStyle) ++ " assigned to both '" ++
      String.ofList duplicate.earlier.plain ++ "' and '" ++ String.ofList duplicate.later.plain ++ "'"

def Source.text (role : Role) (file : String) : Source → Except LoadError (List Char)
  | .missing => .error (.unreadable role file .missing)
  | .directory => .error (.unreadable role file .isDirectory)
  | .bytes content =>
    match Utf8.decode content with
    | .ok text => .ok (unifyLineEnds text)
    | .error fault => .error (.undecodable fault)

def checked {α : Type} [Layered α] (file : String) (schema : Schema) (document : α) : Except LoadError Value :=
  let violations := schema.violations [] document
  match Violation.obstacle? violations, Violation.best? violations with
  | some .unwritable, _ => .error .unwritable
  | some (.clash left right), _ => .error (.clash left right)
  | none, some violation =>
    .error (if violation.path.all Scalar.isWritable then .invalid file violation else .unwritable)
  | none, none => .ok (Layered.value document)

/-- The document of a text, which follows the schema. Where `mayBeEmpty` holds, a document without content has no
fields. -/
def document (file : String) (schema : Schema) (mayBeEmpty : Bool) (text : List Char) : Except LoadError Value :=
  match Yaml.read text with
  | .error .malformed => .error (.notYaml file)
  | .error fault => .error (.valueless fault)
  | .ok found =>
    if mayBeEmpty && found.isNull then checked file schema (Value.object []) else checked file schema found

structure Loading (α : Type) where
  log : List LogEntry
  outcome : Except LoadError α

def loadSettings (file : String) (source : Source) : Loading Settings :=
  match source.text .settings file >>= document file Settings.schema true with
  | .error e => ⟨[], .error e⟩
  | .ok v => ⟨[.loadedFile file, .readSettings file (.ofValue v)], .ok (.ofValue v)⟩

def LoadError.ofDuplicate (file : String) (duplicate : Registry.Duplicate) : LoadError :=
  if duplicate.code.isWritable && duplicate.earlier.isWritable && duplicate.later.isWritable then
    .duplicateCode file duplicate
  else .unwritable

def loadRegistry (file : String) (source : Source) : Loading (List Registry.Entry) :=
  match source.text .registry file >>= document file Registry.schema false with
  | .error e => ⟨[], .error e⟩
  | .ok v => ⟨[.loadedFile file], (Registry.ofValue v).mapError (.ofDuplicate file)⟩

def loadBundled : Loading (List Registry.Entry) :=
  ⟨[.loadedFile Registry.bundledName], .ok Registry.bundled⟩

end CompilerAdapter.Configuration
