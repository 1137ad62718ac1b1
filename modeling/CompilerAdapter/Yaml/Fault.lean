import CompilerAdapter.Calendar.Date
import CompilerAdapter.Number.Basic
import CompilerAdapter.Text.Quoted

/-! # Faults in YAML text -/
namespace CompilerAdapter.Yaml

inductive Fault where
  | malformed
  /-- An escape asks for a code point that there is not; `wide` if it does not even fit into 31 bits. -/
  | codePointTooLarge (wide : Bool)
  | numeralTooLong (digits : Nat)
  | emptyNumber
  | notAnInteger (base : Nat) (text : List Char)
  | notAFloat (text : List Char)
  /-- A number to the base sixty has more parts than the 64-bit format has room for. -/
  | scaleTooLarge
  | notATruthValue (word : List Char)
  | notATimestamp
  | timestampOfCollection
  | calendar (fault : Calendar.Fault)
  | endless
  deriving DecidableEq, Repr

/-- The most characters of a text that are shown of a number that is not whole, quotes included. -/
def shownOfInteger : Nat := 200

def Fault.message : Fault → String
  | .malformed => "Invalid YAML"
  | .codePointTooLarge false => "chr() arg not in range(0x110000)"
  | .codePointTooLarge true => "Python int too large to convert to C int"
  | .numeralTooLong digits => Numeral.tooLongMessage digits
  | .emptyNumber => "string index out of range"
  | .notAnInteger base text =>
    "invalid literal for int() with base " ++ String.ofList (Nat.toDigits 10 base) ++ ": " ++
      String.ofList ((quoted text).take shownOfInteger)
  | .notAFloat text => "could not convert string to float: " ++ String.ofList (quoted text)
  | .scaleTooLarge => "int too large to convert to float"
  | .notATruthValue word => String.ofList (quoted word)
  | .notATimestamp => "'NoneType' object has no attribute 'groupdict'"
  | .timestampOfCollection => "expected string or bytes-like object, got 'list'"
  | .calendar fault => fault.message
  | .endless => "maximum recursion depth exceeded"

end CompilerAdapter.Yaml
