import CompilerAdapter.Number.Basic

/-! # Parts, lines and positions

A text is broken into lines by CR LF, CR, LF and the Unicode line and paragraph separators. Offsets count characters
from zero, and so do lines and the characters of a line. -/
namespace CompilerAdapter

/-- The texts between the separators, one more than there are separators. -/
def splitAtEach (separator : Char) : List Char → List (List Char)
  | [] => [[]]
  | c :: rest =>
    if c = separator then [] :: splitAtEach separator rest
    else
      match splitAtEach separator rest with
      | [] => [[c]]
      | part :: parts => (c :: part) :: parts

/-- A line and a character of it. Those of a text are not negative; other sources of positions promise nothing. -/
structure Position where
  line : Int
  character : Int
  deriving DecidableEq, Repr

/-- A character that ends a line; CR LF ends one line only. -/
def isLineEnd (c : Char) : Bool := c == '\n' || c == '\r' || c == '\u2028' || c == '\u2029'

def laterLineStarts (offset : Nat) : List Char → List Nat
  | [] => []
  | c :: rest =>
    if isLineEnd c && !(c == '\r' && rest.head? == some '\n') then (offset + 1) :: laterLineStarts (offset + 1) rest
    else laterLineStarts (offset + 1) rest

def lineStarts (text : List Char) : List Nat := 0 :: laterLineStarts 0 text

inductive PositionError where
  | negative (offset : Int)
  | pastEnd (offset : Int) (file : String) (size : Nat)
  deriving DecidableEq, Repr

namespace PositionError

def offset : PositionError → Int
  | .negative offset | .pastEnd offset _ _ => offset

/-- An offset with too many digits cannot be told; the error then says so instead. -/
def message (e : PositionError) : String :=
  if (Number.int e.offset).isWritable then
    "Position " ++ String.ofList (intText e.offset) ++
      match e with
      | .negative _ => " cannot be negative"
      | .pastEnd _ file size =>
        " is past the end of " ++ file ++ " (" ++ String.ofList (Nat.toDigits 10 size) ++ " characters)"
  else Numeral.tooLongToWriteMessage

end PositionError

/-- The line of an offset is the last one that starts at or before it. -/
def positionIn (starts : List Nat) (offset : Nat) : Position :=
  let before := starts.takeWhile (· ≤ offset)
  { line := (before.length : Int) - 1, character := (offset : Int) - before.getLastD 0 }

def positionOf (file : String) (text : List Char) (offset : Int) : Except PositionError Position :=
  if (text.length : Int) < offset then .error (.pastEnd offset file text.length)
  else if offset < 0 then .error (.negative offset)
  else .ok (positionIn (lineStarts text) offset.toNat)

end CompilerAdapter
