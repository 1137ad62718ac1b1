/-! # Messages

A message is a text, or a chain: a head with its category and the messages that elaborate it. -/
namespace CompilerAdapter

inductive Category where
  | warning
  | error
  | suggestion
  | message
  deriving DecidableEq, Repr, Inhabited

namespace Category

def all : List Category := [.warning, .error, .suggestion, .message]

def name : Category → String
  | .warning => "warning"
  | .error => "error"
  | .suggestion => "suggestion"
  | .message => "message"

def ofName? (name : String) : Option Category := all.find? (·.name == name)

end Category

inductive Message where
  | absent
  | text (line : String)
  | chain (head : String) (code : Int) (category : Category) (next : List Message)

namespace Message

/-- The start of a line at a level of a chain. The head of the outermost chain goes on where it stands. -/
def lineStart (newLine : String) (level : Int) : String :=
  if level = 0 then "" else newLine ++ String.ofList (List.replicate (2 * level.toNat) ' ')

mutual

/-- A message as one text: each elaboration on a line of its own, two spaces deeper than what it elaborates. -/
def flatten (newLine : String) (level : Int) : Message → String
  | .absent => ""
  | .text line => line
  | .chain head _ _ next => lineStart newLine level ++ head ++ flattenAll newLine (level + 1) next

def flattenAll (newLine : String) (level : Int) : List Message → String
  | [] => ""
  | message :: rest => flatten newLine level message ++ flattenAll newLine level rest

end

end Message

end CompilerAdapter
