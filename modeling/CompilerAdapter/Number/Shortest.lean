import CompilerAdapter.Number.Binary64

/-! # Shortest decimal text

The fewest decimal digits that read back as a given number, and of those the nearest to it. All tests are made on
integers: a point `p * 10 ^ s` of a decimal grid is compared with the two ends of the interval that rounds to the number. -/
namespace CompilerAdapter

structure Decimal where
  digits : Nat
  exponent : Int
  deriving DecidableEq, Repr

namespace Decimal

def trim : Nat → Decimal → Decimal
  | 0, d => d
  | fuel + 1, d => if d.digits % 10 = 0 then trim fuel ⟨d.digits / 10, d.exponent + 1⟩ else d

end Decimal

/-- The interval of reals that round to `mantissa * 2 ^ exponent`, in units of `2 ^ (exponent - 2)`; the ends belong to it
when the mantissa is even. -/
structure RoundingInterval where
  low : Nat
  middle : Nat
  high : Nat
  closed : Bool

namespace RoundingInterval

/-- Below a power of two the neighbour is only half as far away. -/
def of (mantissa : Nat) (exponent : Int) : RoundingInterval where
  low := if mantissa = 2 ^ 52 ∧ Binary64.minExponent < exponent then 4 * mantissa - 1 else 4 * mantissa - 2
  middle := 4 * mantissa
  high := 4 * mantissa + 2
  closed := mantissa % 2 == 0

def factors (exponent s : Int) : Nat × Nat :=
  (2 ^ (2 - exponent).toNat * 10 ^ s.toNat, 2 ^ (exponent - 2).toNat * 10 ^ (-s).toNat)

def holds (i : RoundingInterval) (grid unit p : Nat) : Bool :=
  if i.closed then decide (i.low * unit ≤ p * grid) && decide (p * grid ≤ i.high * unit)
  else decide (i.low * unit < p * grid) && decide (p * grid < i.high * unit)

def pointOn (i : RoundingInterval) (exponent s : Int) : Option Nat :=
  let (grid, unit) := factors exponent s
  let below := i.middle * unit / grid
  let gap := i.middle * unit - below * grid
  match i.holds grid unit below, i.holds grid unit (below + 1) with
  | true, true =>
    if 2 * gap < grid then some below
    else if grid < 2 * gap then some (below + 1)
    else some (below + below % 2)
  | true, false => some below
  | false, true => some (below + 1)
  | false, false => none

end RoundingInterval

namespace Binary64

def decimalExponent (mantissa : Nat) (exponent : Int) : Int :=
  let guess := Int.fdiv (((mantissa.log2 : Int) + exponent) * 30103) 100000
  let reaches (power : Int) : Bool :=
    decide (2 ^ (-exponent).toNat * 10 ^ power.toNat ≤ mantissa * 2 ^ exponent.toNat * 10 ^ (-power).toNat)
  if reaches (guess + 1) then guess + 1 else if reaches guess then guess else guess - 1

/-- The shortest decimal of the positive number `mantissa * 2 ^ exponent`: grids are tried from the coarsest on,
and 17 digits always suffice. -/
def shortest (mantissa : Nat) (exponent : Int) : Decimal :=
  let first := decimalExponent mantissa exponent
  let interval := RoundingInterval.of mantissa exponent
  let found := (List.range 17).findSome? fun (n : Nat) =>
    (interval.pointOn exponent (first - n)).map fun p => Decimal.trim 20 ⟨p, first - n⟩
  found.getD ⟨0, 0⟩

end Binary64

/-- How a number of the 64-bit format is written: the exponents of its first digit for which the point stands among
the digits, and the words for the numbers that are not finite. -/
structure FloatStyle where
  positionalFrom : Int
  positionalBelow : Int
  exponentWidth : Nat
  infinity : String
  notANumber : String

namespace FloatStyle

def decimalText (style : FloatStyle) (d : Decimal) : List Char :=
  let digits := Nat.toDigits 10 d.digits
  let first : Int := d.exponent + digits.length - 1
  if style.positionalFrom ≤ first ∧ first < style.positionalBelow then
    if first < 0 then ['0', '.'] ++ List.replicate (-first - 1).toNat '0' ++ digits
    else
      let whole := digits.take (first.toNat + 1)
      let rest := digits.drop (first.toNat + 1)
      whole ++ List.replicate (first.toNat + 1 - whole.length) '0' ++ '.' :: (if rest.isEmpty then ['0'] else rest)
  else
    let size := Nat.toDigits 10 first.natAbs
    let fraction := digits.drop 1
    digits.take 1 ++ (if fraction.isEmpty then [] else '.' :: fraction) ++
      ['e', if first < 0 then '-' else '+'] ++ List.replicate (style.exponentWidth - size.length) '0' ++ size

def text (style : FloatStyle) : Binary64 → List Char
  | .nan _ => style.notANumber.toList
  | .infinite negative => (if negative then ['-'] else []) ++ style.infinity.toList
  | .finite negative mantissa exponent =>
    (if negative then ['-'] else []) ++
      if mantissa = 0 then ['0', '.', '0'] else style.decimalText (Binary64.shortest mantissa exponent)

end FloatStyle

end CompilerAdapter
