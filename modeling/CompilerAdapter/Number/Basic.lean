import CompilerAdapter.Number.Shortest

/-! # Numbers

Whole numbers without bound and numbers of the 64-bit format are kept apart, as a document writes them, and compared
by value: `1` equals `1.0`. Whole numbers are read from at most 4300 decimal digits, and written with no more. -/
namespace CompilerAdapter

inductive Number where
  | int (value : Int)
  | float (value : Binary64)
  deriving DecidableEq, Repr, Inhabited

def intText : Int → List Char
  | .ofNat n => Nat.toDigits 10 n
  | .negSucc n => '-' :: Nat.toDigits 10 (n + 1)

namespace Number

/-- The exact value `significand * 2 ^ exponent` of a number that is finite. -/
def dyadic? : Number → Option (Int × Int)
  | .int n => some (n, 0)
  | .float (.finite negative mantissa exponent) => some (Binary64.signed negative mantissa, exponent)
  | .float _ => none

/-- The side of all finite numbers on which an infinite number lies. -/
def side : Number → Int
  | .float (.infinite negative) => if negative then -1 else 1
  | _ => 0

def isNaN : Number → Bool
  | .float (.nan _) => true
  | _ => false

def compare? (a b : Number) : Option Ordering :=
  if a.isNaN || b.isNaN then none
  else match a.dyadic?, b.dyadic? with
    | some (m, e), some (n, f) =>
      let low := min e f
      some (compare (m * 2 ^ (e - low).toNat) (n * 2 ^ (f - low).toNat))
    | _, _ => some (compare a.side b.side)

def equal (a b : Number) : Bool := a.compare? b == some .eq

def less (a b : Number) : Bool := a.compare? b == some .lt

def isIntegral : Number → Bool
  | .int _ => true
  | .float x => x.isIntegral

def text (style : FloatStyle) : Number → List Char
  | .int n => intText n
  | .float x => style.text x

end Number

/-! ### Decimal numerals -/

namespace Numeral

def value (digits : List Char) : Nat := Nat.ofDigitChars 10 digits 0

def maxDigits : Nat := 4300

/-- The number that decimal digits spell, or how many of them there are if they are too many. -/
def read (digits : List Char) : Except Nat Nat :=
  if maxDigits < digits.length then .error digits.length else .ok (value digits)

def tooLongMessage (digits : Nat) : String :=
  "Exceeds the limit (4300 digits) for integer string conversion: value has " ++
    String.ofList (Nat.toDigits 10 digits) ++
    " digits; use sys.set_int_max_str_digits() to increase the limit"

def tooLongToWriteMessage : String :=
  "Exceeds the limit (4300 digits) for integer string conversion; " ++
    "use sys.set_int_max_str_digits() to increase the limit"

end Numeral

def Number.isWritable : Number → Bool
  | .int n => decide (n.natAbs < 10 ^ Numeral.maxDigits)
  | .float _ => true

end CompilerAdapter
