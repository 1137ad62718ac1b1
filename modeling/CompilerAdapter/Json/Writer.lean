import CompilerAdapter.Document.Display

/-! # Writing JSON

Values on one line, `", "` between items and `": "` after a name. The text is plain ASCII: other characters are
escaped by their UTF-16 units. What JSON has no form for is written as a string, and is told beforehand. -/
namespace CompilerAdapter.Json

def numberStyle : FloatStyle := { displayStyle with infinity := "Infinity", notANumber := "NaN" }

def unitEscape (n : Nat) : List Char := '\\' :: 'u' :: hexDigits 4 n

def writeChar (c : Char) : List Char :=
  if c = '"' ∨ c = '\\' then ['\\', c]
  else if c = '\n' then ['\\', 'n']
  else if c = '\r' then ['\\', 'r']
  else if c = '\t' then ['\\', 't']
  else if c = '\x08' then ['\\', 'b']
  else if c = '\x0c' then ['\\', 'f']
  else if 0x20 ≤ c.toNat ∧ c.toNat < 0x7f then [c]
  else if c.toNat < 0x10000 then unitEscape c.toNat
  else
    unitEscape (0xd800 + (c.toNat - 0x10000) / 0x400) ++ unitEscape (0xdc00 + (c.toNat - 0x10000) % 0x400)

def writeString (s : List Char) : List Char :=
  '"' :: s.flatMap writeChar ++ ['"']

def writeScalar : Scalar → List Char
  | .null => "null".toList
  | .bool true => "true".toList
  | .bool false => "false".toList
  | .number n => n.text numberStyle
  | .string s => writeString s.toList
  | other => writeString other.plain

/-- A key is written as a string, whatever scalar it is. -/
def writeKey : Scalar → List Char
  | .string s => writeString s.toList
  | key@(.null) | key@(.bool _) | key@(.number _) => '"' :: writeScalar key ++ ['"']
  | other => writeScalar other

mutual

def write : Value → List Char
  | .scalar s => writeScalar s
  | .list [] => ['[', ']']
  | .list (v :: rest) => '[' :: (write v ++ writeItems rest) ++ [']']
  | .object [] => ['{', '}']
  | .object ((k, v) :: rest) => '{' :: (writeKey k ++ ':' :: ' ' :: (write v ++ writeFields rest)) ++ ['}']
  | .pair a b => '[' :: (write a ++ ',' :: ' ' :: write b) ++ [']']
  | .set members => '[' :: [',', ' '].intercalate (members.map writeScalar) ++ [']']
  | .enclosing _ => writeString "...".toList

def writeItems : List Value → List Char
  | [] => []
  | v :: rest => ',' :: ' ' :: (write v ++ writeItems rest)

def writeFields : List (Scalar × Value) → List Char
  | [] => []
  | (k, v) :: rest => ',' :: ' ' :: (writeKey k ++ ':' :: ' ' :: (write v ++ writeFields rest))

end

def text (v : Value) : String := String.ofList (write v)

/-! ### What cannot be written -/

inductive Obstacle where
  | tooLong
  | formless (kind : String)
  deriving DecidableEq, Repr

def Obstacle.message : Obstacle → String
  | .tooLong => Numeral.tooLongToWriteMessage
  | .formless kind => "Object of type " ++ kind ++ " is not JSON serializable"

def scalarObstacle? : Scalar → Option Obstacle
  | .number n => if n.isWritable then none else some .tooLong
  | .bytes _ => some (.formless "bytes")
  | .date _ => some (.formless "date")
  | .timestamp _ => some (.formless "datetime")
  | _ => none

mutual

/-- What keeps a value from being written, the first in the order of writing. -/
def obstacle? : Value → Option Obstacle
  | .scalar s => scalarObstacle? s
  | .list items => itemObstacle? items
  | .object fields => fieldObstacle? fields
  | .pair a b => (obstacle? a).or (obstacle? b)
  | .set _ => some (.formless "set")
  | .enclosing _ => none

def itemObstacle? : List Value → Option Obstacle
  | [] => none
  | v :: rest => (obstacle? v).or (itemObstacle? rest)

def fieldObstacle? : List (Scalar × Value) → Option Obstacle
  | [] => none
  | (k, v) :: rest => ((scalarObstacle? k).or (obstacle? v)).or (fieldObstacle? rest)

end

end CompilerAdapter.Json
