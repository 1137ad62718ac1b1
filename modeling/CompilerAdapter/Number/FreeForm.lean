import CompilerAdapter.Number.Basic
import CompilerAdapter.Text.CharacterClass

/-! # Numbers in free form

Numbers with blanks around them, a sign in front, and digits of any script. -/
namespace CompilerAdapter.FreeForm

/-! ### Plain characters -/

def isWideBlank (c : Char) : Bool :=
  let n := c.toNat
  [0x85, 0xa0, 0x1680, 0x2028, 0x2029, 0x202f, 0x205f, 0x3000].contains n ||
    (decide (0x2000 ≤ n) && decide (n ≤ 0x200a))

/-- What a character is read as: blanks and digits of all scripts as the plain ones, and all else outside of ASCII as a
question mark, which no number has. -/
def plainChar (c : Char) : Char :=
  if c.toNat < 0x80 then c
  else if isWideBlank c then ' '
  else ((decimalDigit? c).map Nat.digitChar).getD '?'

def isPlainBlank (c : Char) : Bool := c == ' ' || (decide (0x09 ≤ c.toNat) && decide (c.toNat ≤ 0x0d))

def trimmed (text : List Char) : List Char :=
  let rest := (text.map plainChar).dropWhile isPlainBlank
  (rest.reverse.dropWhile isPlainBlank).reverse

def splitSign : List Char → Bool × List Char
  | '-' :: rest => (true, rest)
  | '+' :: rest => (false, rest)
  | text => (false, text)

/-! ### Whole numbers -/

def digitValue (c : Char) : Nat :=
  if c.isDigit then c.toNat - '0'.toNat
  else if 'a' ≤ c ∧ c ≤ 'z' then c.toNat - 'a'.toNat + 10
  else if 'A' ≤ c ∧ c ≤ 'Z' then c.toNat - 'A'.toNat + 10
  else 36

def baseLetter? : Nat → Option Char
  | 2 => some 'b'
  | 8 => some 'o'
  | 16 => some 'x'
  | _ => none

def withoutBase (base : Nat) (text : List Char) : List Char :=
  match text with
  | '0' :: letter :: rest => if baseLetter? base = some letter.toLower then rest else text
  | _ => text

inductive Fault where
  | malformed
  | tooLong (digits : Nat)
  deriving DecidableEq, Repr

/-- The whole number that a text spells to a base. Decimal numbers have a greatest length. -/
def integer (base : Nat) (text : List Char) : Except Fault Int :=
  let (negative, rest) := splitSign (trimmed text)
  let (digits, rest) := (withoutBase base rest).span fun c => decide (digitValue c < base)
  if base = 10 ∧ Numeral.maxDigits < digits.length then .error (.tooLong digits.length)
  else if digits.isEmpty || !rest.isEmpty then .error .malformed
  else
    let n := digits.foldl (fun n c => n * base + digitValue c) 0
    .ok (if negative then -n else n)

/-! ### Numbers of the 64-bit format -/

def exponent? : List Char → Option Int
  | [] => some 0
  | e :: rest =>
    let (negative, digits) := splitSign rest
    if e.toLower = 'e' ∧ !digits.isEmpty ∧ digits.all Char.isDigit then
      some (if negative then -(Numeral.value digits : Int) else Numeral.value digits)
    else none

def decimal? (negative : Bool) (text : List Char) : Option Binary64 :=
  let (whole, rest) := text.span Char.isDigit
  let (fraction, rest) :=
    match rest with
    | '.' :: rest => rest.span Char.isDigit
    | rest => ([], rest)
  match exponent? rest with
  | some exponent =>
    if (whole ++ fraction).isEmpty then none
    else some (.ofDecimal negative (Numeral.value (whole ++ fraction)) (exponent - fraction.length))
  | none => none

def float? (text : List Char) : Option Binary64 :=
  let (negative, rest) := splitSign (trimmed text)
  let word := rest.map Char.toLower
  if word = "inf".toList ∨ word = "infinity".toList then some (.infinite negative)
  else if word = "nan".toList then some (.nan 0)
  else decimal? negative rest

end CompilerAdapter.FreeForm
