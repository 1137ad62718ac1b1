import CompilerAdapter.Calendar.Timestamp
import CompilerAdapter.Number.Basic

/-! # Reading dates and timestamps

A year of four digits, a month and a day, and perhaps a time of day behind a `T` or blanks, with a fraction of a second
and an offset. -/
namespace CompilerAdapter.Calendar

inductive Moment where
  | day (date : Date)
  | time (timestamp : Timestamp)
  deriving DecidableEq, Repr

def isBlank (c : Char) : Bool := c == ' ' || c == '\t'

def readDigits (least most : Nat) (text : List Char) : Option (Nat × List Char) :=
  let digits := (text.takeWhile Char.isDigit).take most
  if digits.length < least then none
  else some (Numeral.value digits, text.drop digits.length)

def readAfter (mark : Char) (least most : Nat) : List Char → Option (Nat × List Char)
  | c :: rest => if c = mark then readDigits least most rest else none
  | [] => none

def isEnd (text : List Char) : Bool := text.isEmpty || text == ['\n']

def skipSeparator : List Char → Option (List Char)
  | [] => none
  | c :: rest =>
    if c = 'T' ∨ c = 't' then some rest else if isBlank c then some (rest.dropWhile isBlank) else none

/-- Reads the microseconds behind a point, of which the first six digits count. -/
def readFraction (text : List Char) : Nat × List Char :=
  match text with
  | '.' :: rest =>
    let digits := rest.takeWhile Char.isDigit
    (Numeral.value ((digits ++ List.replicate 6 '0').take 6), rest.drop digits.length)
  | _ => (0, text)

def readOffset (text : List Char) : Option (Option Int) :=
  if isEnd text then some none
  else
    match text.dropWhile isBlank with
    | 'Z' :: rest => if isEnd rest then some (some 0) else none
    | sign :: rest =>
      if sign = '+' ∨ sign = '-' then do
        let (hours, rest) ← readDigits 1 2 rest
        let (minutes, rest) ← if isEnd rest then some (0, rest) else readAfter ':' 2 2 rest
        let size : Int := hours * 60 + minutes
        if isEnd rest then some (some (if sign = '-' then -size else size)) else none
      else none
    | [] => none

/-- The moment that a text in this form names; none if it has not the form. An offset is looked at before the day. -/
def read? (text : List Char) : Option (Except Fault Moment) := do
  let (year, rest) ← readDigits 4 4 text
  let (month, rest) ← readAfter '-' 1 2 rest
  let (day, rest) ← readAfter '-' 1 2 rest
  if isEnd rest then return (Date.make year month day).map .day
  let (hour, rest) ← readDigits 1 2 (← skipSeparator rest)
  let (minute, rest) ← readAfter ':' 2 2 rest
  let (second, rest) ← readAfter ':' 2 2 rest
  let (microsecond, rest) := readFraction rest
  let offset ← readOffset rest
  return do
    let offset ← offset.mapM Timestamp.makeOffset
    return .time (← Timestamp.make year month day hour minute second microsecond offset)

end CompilerAdapter.Calendar
