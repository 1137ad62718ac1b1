import CompilerAdapter.Diagnostic.Message
import CompilerAdapter.Schema.Check

/-! # Registries of diagnostic codes

A registry lists diagnostics the compiler may report: a key, a code that no other entry has, a category and a message
with numbered placeholders. -/
namespace CompilerAdapter.Registry

structure Entry where
  key : Scalar
  code : Number
  category : Category
  message : String
  deriving DecidableEq, Repr

def placeholder (index : Nat) : List Char := '\x7b' :: Nat.toDigits 10 index ++ ['\x7d']

/-- Replaces every occurrence of `old`, which is not empty, from left to right. The next `skip` characters belong to an
occurrence that has been replaced. -/
def replaceFrom (old new : List Char) : Nat → List Char → List Char
  | _, [] => []
  | skip + 1, _ :: rest => replaceFrom old new skip rest
  | 0, c :: rest =>
    if old.isPrefixOf (c :: rest) then new ++ replaceFrom old new (old.length - 1) rest
    else c :: replaceFrom old new 0 rest

def replaceAll (old new s : List Char) : List Char := replaceFrom old new 0 s

/-- Fills in arguments one after another, the first for placeholder `index`; a placeholder that an argument brings in is
filled in by a later one. -/
def fillFrom (index : Nat) (text : List Char) : List Scalar → List Char
  | [] => text
  | arg :: rest => fillFrom (index + 1) (replaceAll (placeholder index) arg.plain text) rest

/-- The message of a template. That a whole number with too many digits has no text is left out: it is filled in as it
is. -/
def formatMessage (template : String) (args : List Scalar) : String :=
  String.ofList (fillFrom 0 template.toList args)

def versionPattern : Pattern :=
  let digits := Regex.repeated .oneOrMore false (.char .digit)
  ⟨.sequence [digits, .char (.only '.'), digits, .finish]⟩

def keyPattern : Pattern :=
  ⟨.sequence [.char (.within [('A', 'Z'), ('a', 'z'), ('_', '_')]),
    .repeated .zeroOrMore false (.char (.within [('A', 'Z'), ('a', 'z'), ('0', '9'), ('_', '_')])), .finish]⟩

def entryFields : List String := ["code", "category", "message"]

def entrySchema : Schema :=
  .of (some .object)
    [.required entryFields,
     .fields
      [("code", .of (some .integer) [.atLeast 1]),
       ("category", .of none [.oneOf ["warning", "error", "suggestion", "message"]]),
       ("message", .of (some .string) [.nonEmpty])],
     .closed entryFields]

def schema : Schema :=
  .of (some .object)
    [.required ["version", "codes"],
     .fields
      [("version", .of (some .string) [.matching versionPattern]),
       ("codes", .of (some .object) [.nonEmpty, .keys (.of none [.matching keyPattern]), .others [] entrySchema])],
     .closed ["version", "codes"]]

def Entry.ofField (field : Scalar × Value) : Entry :=
  { key := field.1
    code :=
      match field.2.field? "code" with
      | some (.scalar (.number n)) => n
      | _ => .int 0
    category :=
      match field.2.field? "category" with
      | some (.scalar (.string name)) => (Category.ofName? name).getD .error
      | _ => .error
    message :=
      match field.2.field? "message" with
      | some (.scalar (.string s)) => s
      | _ => "" }

structure Duplicate where
  code : Number
  earlier : Scalar
  later : Scalar
  deriving DecidableEq, Repr

/-- The first entry whose code an earlier one has; `earlier` holds the entries before those that are left,
the last one first. -/
def duplicateFrom? (earlier : List Entry) : List Entry → Option Duplicate
  | [] => none
  | entry :: rest =>
    match earlier.find? (·.code.equal entry.code) with
    | some other => some ⟨entry.code, other.key, entry.key⟩
    | none => duplicateFrom? (entry :: earlier) rest

def ofValue (v : Value) : Except Duplicate (List Entry) :=
  let entries :=
    match v.field? "codes" with
    | some (.object fields) => fields.map Entry.ofField
    | _ => []
  match duplicateFrom? [] entries with
  | some duplicate => .error duplicate
  | none => .ok entries

def toValue (entries : List Entry) : Value :=
  .list (entries.map fun e =>
    .list [.scalar e.key, .scalar e.key, .number e.code, .string e.category.name, .string e.message])

/-! ### The bundled registry -/

def bundledName : String := "codes.yaml"

def cannotFindModule : Number := .int 2307

def bundled : List Entry :=
  [⟨.string "Cannot_find_module_0", cannotFindModule, .error, "Cannot find module '\x7b0\x7d'."⟩,
   ⟨.string "Cannot_find_module_0_or_its_corresponding_type_declarations", .int 2792, .error,
    "Cannot find module '\x7b0\x7d'. Did you mean to set the 'moduleResolution' option to 'node', or to add aliases " ++
      "to the 'paths' option?"⟩,
   ⟨.string "Cannot_find_name_0", .int 2304, .error, "Cannot find name '\x7b0\x7d'."⟩,
   ⟨.string "File_0_not_found", .int 6053, .error, "File '\x7b0\x7d' not found."⟩,
   ⟨.string "_0_expected", .int 1005, .error, "'\x7b0\x7d' expected."⟩,
   ⟨.string "Unterminated_string_literal", .int 1002, .error, "Unterminated string literal."⟩]

def bundledEntry? (key : String) : Option Entry :=
  bundled.find? (·.key == .string key)

end CompilerAdapter.Registry
