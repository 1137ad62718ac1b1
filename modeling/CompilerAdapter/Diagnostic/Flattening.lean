import CompilerAdapter.Diagnostic.Basic
import CompilerAdapter.Diagnostic.Message
import CompilerAdapter.Settings
import CompilerAdapter.Text.Position

/-! # Flattening records

The compiler reports a diagnostic as a record: a message, and an offset in a file. A record becomes a diagnostic when
its offset is turned into a position; records without a file are dropped, with a note of their code. -/
namespace CompilerAdapter

structure SourceFile where
  name : String
  text : String
  deriving DecidableEq, Repr

structure Record where
  code : Int
  message : Message
  file : Option SourceFile := none
  start : Int := 0
  length : Int := 0
  category : Category := .error

abbrev Resolver := SourceFile → Int → Except PositionError Position

def SourceFile.resolve : Resolver := fun file offset => positionOf file.name file.text.toList offset

/-- Why flattening stopped. -/
inductive FlatteningError where
  | misplaced (e : PositionError)
  /-- The code of a record without a file, which would be logged, has too many digits. -/
  | unwritable
  deriving DecidableEq, Repr

def FlatteningError.message : FlatteningError → String
  | .misplaced e => e.message
  | .unwritable => Numeral.tooLongToWriteMessage

/-- What flattening came to: the codes of the records that were dropped, in order, and its result. -/
structure Flattening (α : Type) where
  dropped : List Int
  outcome : Except FlatteningError α

def Flattening.log {α : Type} (f : Flattening α) : List LogEntry := f.dropped.map .droppedDiagnostic

namespace Record

def toDiagnostic (r : Record) (newLine : String) (file : SourceFile) (position : Position) : Diagnostic where
  code := .int r.code
  fileName := file.name
  message := r.message.flatten newLine 0
  line := .int (position.line + 1)
  column := .int (position.character + 1)

/-- The diagnostic of a record; none if it has no file and is dropped. -/
def diagnose (resolve : Resolver) (newLine : String) (r : Record) : Except FlatteningError (Option Diagnostic) :=
  match r.file with
  | none => if (Number.int r.code).isWritable then .ok none else .error .unwritable
  | some file =>
    match resolve file r.start with
    | .error e => .error (.misplaced e)
    | .ok position => .ok (some (r.toDiagnostic newLine file position))

/-- Flattens records in order, up to the first that fails. -/
def flatten (resolve : Resolver) (newLine : String) : List Record → Flattening (List Diagnostic)
  | [] => ⟨[], .ok []⟩
  | r :: rest =>
    let later := flatten resolve newLine rest
    match r.diagnose resolve newLine with
    | .error e => ⟨[], .error e⟩
    | .ok none => ⟨r.code :: later.dropped, later.outcome⟩
    | .ok (some diagnostic) => ⟨later.dropped, later.outcome.map (diagnostic :: ·)⟩

/-- The questions that flattening puts to a resolver that answers them all: a file and an offset each. -/
def questions (records : List Record) : List (String × Int) :=
  records.filterMap fun r => r.file.map fun file => (file.name, r.start)

end Record

/-- Flattens the records of both phases; the semantic ones only if none of the syntactic ones fails. -/
def Report.create (resolve : Resolver) (newLine : String) (syntactic semantic : List Record) : Flattening Report :=
  let first := Record.flatten resolve newLine syntactic
  match first.outcome with
  | .error e => ⟨first.dropped, .error e⟩
  | .ok syntacticDiagnostics =>
    let second := Record.flatten resolve newLine semantic
    ⟨first.dropped ++ second.dropped, second.outcome.map fun semanticDiagnostics =>
      ⟨syntacticDiagnostics, semanticDiagnostics⟩⟩

end CompilerAdapter
