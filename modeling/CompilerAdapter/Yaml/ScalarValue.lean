import CompilerAdapter.Calendar.Reading
import CompilerAdapter.Document.Basic
import CompilerAdapter.Number.FreeForm
import CompilerAdapter.Text.Encoding
import CompilerAdapter.Text.LetterCase
import CompilerAdapter.Text.Position
import CompilerAdapter.Yaml.Fault

/-! # Values of scalars

What the text of a scalar stands for, by the tag of the scalar. Numbers may have underscores in them; to the base sixty
their parts are set apart by colons. -/
namespace CompilerAdapter.Yaml.ScalarValue

def withoutLines (text : List Char) : List Char := text.filter (· != '_')

def takeSign (text : List Char) : Except Fault (Bool × List Char) :=
  if text.isEmpty then .error .emptyNumber else .ok (FreeForm.splitSign text)

/-! ### Whole numbers -/

def integerPart (base : Nat) (text : List Char) : Except Fault Int :=
  (FreeForm.integer base text).mapError fun
    | .malformed => .notAnInteger base text
    | .tooLong digits => .numeralTooLong digits

/-- The value of a number behind its sign: binary, hexadecimal, octal behind a zero, to the base sixty, or decimal. -/
def unsignedInteger (text : List Char) : Except Fault Int :=
  match text with
  | [] => .error .emptyNumber
  | ['0'] => .ok 0
  | '0' :: 'b' :: digits => integerPart 2 digits
  | '0' :: 'x' :: digits => integerPart 16 digits
  | '0' :: _ => integerPart 8 text
  | _ =>
    if text.contains ':' then do
      return (← (splitAtEach ':' text).mapM (integerPart 10)).foldl (fun n part => n * 60 + part) 0
    else integerPart 10 text

def integer (text : List Char) : Except Fault Int := do
  let (negative, rest) ← takeSign (withoutLines text)
  let n ← unsignedInteger rest
  return if negative then -n else n

/-! ### Numbers of the 64-bit format -/

def floatPart (text : List Char) : Except Fault Binary64 :=
  match FreeForm.float? text with
  | some x => .ok x
  | none => .error (.notAFloat text)

/-- The sum of the parts of a number to the base sixty, the last part first. A factor that the format has no room for is
a fault. -/
def sumOfSixties (factor : Nat) (sum : Binary64) : List Binary64 → Except Fault Binary64
  | [] => .ok sum
  | part :: rest =>
    match Binary64.ofRatio false factor 1 with
    | .finite negative mantissa exponent =>
      sumOfSixties (factor * 60) (sum.add (part.mul (.finite negative mantissa exponent))) rest
    | _ => .error .scaleTooLarge

def unsignedFloat (text : List Char) : Except Fault Binary64 :=
  if text = ".inf".toList then .ok (.infinite false)
  else if text.contains ':' then do
    sumOfSixties 1 (.zero false) (← (splitAtEach ':' text).mapM floatPart).reverse
  else floatPart text

/-- The number of the 64-bit format that a text spells. Each computation that fails to give a number has a mark of its
own, and the word for this has the mark zero. -/
def float (mark : Nat) (text : List Char) : Except Fault Binary64 := do
  let (negative, rest) ← takeSign (lowercase (withoutLines text))
  if rest = ".nan".toList then return .nan 0
  let size ← unsignedFloat rest
  return (if negative then size.neg else size).withMark mark

/-! ### Other scalars -/

def truth (text : List Char) : Except Fault Bool :=
  let word := lowercase text
  if ["yes", "true", "on"].any (·.toList == word) then .ok true
  else if ["no", "false", "off"].any (·.toList == word) then .ok false
  else .error (.notATruthValue word)

def bytes (text : List Char) : Except Fault (List UInt8) :=
  if text.all fun c => decide (c.toNat < 0x80) then
    match Base64.decode? text with
    | some content => .ok content
    | none => .error .malformed
  else .error .malformed

def moment (text : List Char) : Except Fault Scalar :=
  match Calendar.read? text with
  | none => .error .notATimestamp
  | some (.error fault) => .error (.calendar fault)
  | some (.ok (.day d)) => .ok (.date d)
  | some (.ok (.time t)) => .ok (.timestamp t)

end CompilerAdapter.Yaml.ScalarValue
