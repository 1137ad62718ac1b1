import CompilerAdapter.Calendar.Date

/-! # Timestamps

A date with a time of day, which may tell how far it is from universal time. -/
namespace CompilerAdapter

/-- A point in time. The offset is in minutes, to the east. -/
structure Timestamp where
  date : Date
  hour : Nat
  minute : Nat
  second : Nat
  microsecond : Nat
  offset : Option Int
  deriving DecidableEq, Repr

namespace Timestamp

open Calendar

def makeOffset (minutes : Int) : Except Fault Int :=
  if minutes.natAbs < 24 * 60 then .ok minutes else .error (.offset minutes)

def make (year month day hour minute second microsecond : Nat) (offset : Option Int) : Except Fault Timestamp := do
  let date ← Date.make year month day
  if 24 ≤ hour then throw .hour
  if 60 ≤ minute then throw .minute
  if 60 ≤ second then throw .second
  return ⟨date, hour, minute, second, microsecond, offset⟩

/-- The time that has gone by on the clock of universal time, in microseconds. Without an offset the clock is taken to
show universal time. -/
def instant (t : Timestamp) : Int :=
  let minutes : Int := (t.date.number * 24 + t.hour) * 60 + t.minute - t.offset.getD 0
  (minutes * 60 + t.second) * 1000000 + t.microsecond

def isComparable (a b : Timestamp) : Bool := a.offset.isSome == b.offset.isSome

def offsetText (minutes : Int) : List Char :=
  (if minutes < 0 then '-' else '+') :: padded 2 (minutes.natAbs / 60) ++ ':' :: padded 2 (minutes.natAbs % 60)

def text (t : Timestamp) : List Char :=
  t.date.text ++ ' ' :: padded 2 t.hour ++ ':' :: padded 2 t.minute ++ ':' :: padded 2 t.second ++
    (if t.microsecond = 0 then [] else '.' :: padded 6 t.microsecond) ++ (t.offset.map offsetText).getD []

end Timestamp

end CompilerAdapter
