/-! # Numbers of the 64-bit binary format

Finite numbers are held by their exact value, so that rounding, comparison and printing are integer arithmetic. -/
namespace CompilerAdapter

/-! ### Powers of whole numbers

They are those of arithmetic, also where powers in monoids are known. -/

@[default_instance 10001]
scoped instance (priority := 1100) powNat : Pow Nat Nat := instPowNat

scoped instance (priority := 1100) powInt : Pow Int Nat := instPowNat

/-- A finite number is `± mantissa * 2 ^ exponent` with a mantissa below `2 ^ 53` and an exponent from -1074 to 971.
What is not a number carries a mark, by which it is told from others of its kind. -/
inductive Binary64 where
  | finite (negative : Bool) (mantissa : Nat) (exponent : Int)
  | infinite (negative : Bool)
  | nan (mark : Nat)
  deriving DecidableEq, Repr, Inhabited

/-- The integer nearest to `num / den`; half-way cases go to the even neighbour. -/
def divRoundEven (num den : Nat) : Nat :=
  let q := num / den
  let r := num % den
  if 2 * r < den then q else if den < 2 * r then q + 1 else q + q % 2

namespace Binary64

def minExponent : Int := -1074

def maxExponent : Int := 971

def zero (negative : Bool) : Binary64 := .finite negative 0 minExponent

def inUnits (num den : Nat) (exponent : Int) : Nat × Nat :=
  if exponent < 0 then (num * 2 ^ exponent.natAbs, den) else (num, den * 2 ^ exponent.natAbs)

/-- The exponent at which the positive fraction `num / den` has a mantissa of 53 bits, or the least one. -/
def exponentOf (num den : Nat) : Int :=
  let guess : Int := (num.log2 : Int) - den.log2 - 52
  let (n, d) := inUnits num den guess
  max minExponent (if n / d < 2 ^ 52 then guess - 1 else guess)

def ofRatio (negative : Bool) (num den : Nat) : Binary64 :=
  if num = 0 then zero negative
  else
    let exponent := exponentOf num den
    let (n, d) := inUnits num den exponent
    let mantissa := divRoundEven n d
    let (mantissa, exponent) :=
      if mantissa = 2 ^ 53 then (2 ^ 52, exponent + 1) else (mantissa, exponent)
    if maxExponent < exponent then .infinite negative else .finite negative mantissa exponent

/-- The number nearest to `± digits * 10 ^ exponent`. Far outside the range the power is not computed. -/
def ofDecimal (negative : Bool) (digits : Nat) (exponent : Int) : Binary64 :=
  if digits = 0 then zero negative
  else if 400 < exponent then .infinite negative
  else if exponent + (digits.log2 / 3 + 1 : Nat) < -400 then zero negative
  else if exponent < 0 then ofRatio negative digits (10 ^ exponent.natAbs)
  else ofRatio negative (digits * 10 ^ exponent.natAbs) 1

def ofScaled (negative : Bool) (significand : Nat) (exponent : Int) : Binary64 :=
  let (num, den) := inUnits significand 1 (-exponent)
  ofRatio negative num den

def signed (negative : Bool) (mantissa : Nat) : Int :=
  if negative then -mantissa else mantissa

def isIntegral : Binary64 → Bool
  | .finite _ mantissa exponent => decide (0 ≤ exponent) || mantissa % 2 ^ exponent.natAbs == 0
  | _ => false

def add : Binary64 → Binary64 → Binary64
  | .finite a m e, .finite b n f =>
    let low := min e f
    let sum := signed a m * 2 ^ (e - low).toNat + signed b n * 2 ^ (f - low).toNat
    ofScaled (if sum = 0 then a && b else decide (sum < 0)) sum.natAbs low
  | .nan mark, _ | _, .nan mark => .nan mark
  | .infinite a, .infinite b => if a = b then .infinite a else .nan 0
  | .infinite a, _ | _, .infinite a => .infinite a

def mul : Binary64 → Binary64 → Binary64
  | .finite a m e, .finite b n f => ofScaled (a != b) (m * n) (e + f)
  | .nan mark, _ | _, .nan mark => .nan mark
  | .infinite a, .finite b m _ | .finite a m _, .infinite b => if m = 0 then .nan 0 else .infinite (a != b)
  | .infinite a, .infinite b => .infinite (a != b)

def neg : Binary64 → Binary64
  | .finite negative m e => .finite (!negative) m e
  | .infinite negative => .infinite (!negative)
  | .nan mark => .nan mark

def withMark (mark : Nat) : Binary64 → Binary64
  | .nan _ => .nan mark
  | x => x

end Binary64

end CompilerAdapter
