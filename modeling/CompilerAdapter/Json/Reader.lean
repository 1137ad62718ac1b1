import CompilerAdapter.Document.Basic
import CompilerAdapter.Number.Basic
import CompilerAdapter.Text.Encoding

/-! # Reading JSON

Objects keep the order of their names, a repeated name keeps its first place and its last value, whole numbers and
others are told apart, and `NaN`, `Infinity` and `-Infinity` are numbers. -/
namespace CompilerAdapter.Json

inductive Fault where
  | value
  | name
  | colon
  | comma
  | extraData
  | unterminatedString
  | controlCharacter
  | escape
  | unicodeEscape
  | byteOrderMark
  deriving DecidableEq, Repr

inductive ReadError where
  | malformed (fault : Fault) (offset : Nat)
  | numeralTooLong (digits : Nat)
  deriving DecidableEq, Repr

def Fault.message : Fault → String
  | .value => "Expecting value"
  | .name => "Expecting property name enclosed in double quotes"
  | .colon => "Expecting ':' delimiter"
  | .comma => "Expecting ',' delimiter"
  | .extraData => "Extra data"
  | .unterminatedString => "Unterminated string starting at"
  | .controlCharacter => "Invalid control character at"
  | .escape => "Invalid \\escape"
  | .unicodeEscape => "Invalid \\uXXXX escape"
  | .byteOrderMark => "Unexpected UTF-8 BOM (decode using utf-8-sig)"

/-- The line of an offset, counted from one; only line feeds end a line. -/
def lineOf (text : List Char) (offset : Nat) : Nat :=
  (text.take offset).count '\n' + 1

def columnOf (text : List Char) (offset : Nat) : Nat :=
  ((text.take offset).reverse.takeWhile (· != '\n')).length + 1

def faultMessage (text : List Char) (fault : Fault) (offset : Nat) : String :=
  let shown (n : Nat) := String.ofList (Nat.toDigits 10 n)
  fault.message ++ ": line " ++ shown (lineOf text offset) ++ " column " ++ shown (columnOf text offset) ++
    " (char " ++ shown offset ++ ")"

inductive Stop where
  | malformed (fault : Fault) (rest : List Char)
  | numeralTooLong (digits : Nat)

abbrev Read (α : Type) := Except Stop (α × List Char)

def isBlank (c : Char) : Bool := c == ' ' || c == '\t' || c == '\n' || c == '\r'

def skipBlank (s : List Char) : List Char := s.dropWhile isBlank

/-! ### Strings -/

def escaped? : Char → Option Char
  | '"' => some '"'
  | '\\' => some '\\'
  | '/' => some '/'
  | 'b' => some '\x08'
  | 'f' => some '\x0c'
  | 'n' => some '\n'
  | 'r' => some '\r'
  | 't' => some '\t'
  | _ => none

def isHighSurrogate (n : Nat) : Bool := decide (0xd800 ≤ n) && decide (n < 0xdc00)

def isLowSurrogate (n : Nat) : Bool := decide (0xdc00 ≤ n) && decide (n < 0xe000)

/-- The characters of a sequence of units: a high and a low surrogate are one character, and a surrogate on its own
stands as the replacement character. -/
def joinUnits : List Nat → List Char
  | [] => []
  | [n] => [unitChar n]
  | high :: low :: rest =>
    if isHighSurrogate high && isLowSurrogate low then
      Char.ofNat (0x10000 + (high - 0xd800) * 0x400 + (low - 0xdc00)) :: joinUnits rest
    else unitChar high :: joinUnits (low :: rest)
where
  unitChar (n : Nat) : Char :=
    if isHighSurrogate n || isLowSurrogate n then '\ufffd' else Char.ofNat n

/-- Reads a string from behind its opening quote; `opening` is the text from that quote on and `units` holds what has
been read, the last unit first. A unit escape needs another character behind it. -/
def readUnits (opening : List Char) (units : List Nat) : List Char → Read (List Nat)
  | [] => .error (.malformed .unterminatedString opening)
  | c :: rest =>
    if c = '"' then .ok (units.reverse, rest)
    else if c = '\\' then
      match rest with
      | [] => .error (.malformed .unterminatedString opening)
      | 'u' :: digits =>
        match digits with
        | h₁ :: h₂ :: h₃ :: h₄ :: next :: more =>
          match hexNumber? [h₁, h₂, h₃, h₄] with
          | some n => readUnits opening (n :: units) (next :: more)
          | none => .error (.malformed .unicodeEscape rest)
        | _ => .error (.malformed .unicodeEscape rest)
      | e :: more =>
        match escaped? e with
        | some d => readUnits opening (d.toNat :: units) more
        | none => .error (.malformed .escape (c :: rest))
    else if c.toNat < 0x20 then .error (.malformed .controlCharacter (c :: rest))
    else readUnits opening (c.toNat :: units) rest

def readString (opening : List Char) : Read String :=
  match readUnits opening [] opening.tail with
  | .ok (units, rest) => .ok (String.ofList (joinUnits units), rest)
  | .error stop => .error stop

/-! ### Numbers -/

def wholeDigits : List Char → List Char × List Char
  | '0' :: rest => (['0'], rest)
  | s => s.span Char.isDigit

def fractionDigits : List Char → List Char × List Char
  | '.' :: rest => if (rest.takeWhile Char.isDigit).isEmpty then ([], '.' :: rest) else rest.span Char.isDigit
  | s => ([], s)

def exponent? (s : List Char) : Option (Int × List Char) :=
  match s with
  | e :: rest =>
    if e = 'e' ∨ e = 'E' then
      let (negative, rest) :=
        match rest with
        | '-' :: more => (true, more)
        | '+' :: more => (false, more)
        | more => (false, more)
      let (digits, rest) := rest.span Char.isDigit
      if digits.isEmpty then none
      else some (if negative then -(Numeral.value digits : Int) else Numeral.value digits, rest)
    else none
  | [] => none

def readNumber (s : List Char) : Read Value :=
  let (negative, unsigned) :=
    match s with
    | '-' :: rest => (true, rest)
    | rest => (false, rest)
  let (whole, rest) := wholeDigits unsigned
  if whole.isEmpty then .error (.malformed .value s)
  else
    let (fraction, rest) := fractionDigits rest
    match fraction, exponent? rest with
    | [], none =>
      match Numeral.read whole with
      | .ok n => .ok (.int (if negative then -n else n), rest)
      | .error digits => .error (.numeralTooLong digits)
    | _, scale =>
      let (exponent, rest) := scale.getD (0, rest)
      let digits := Numeral.value (whole ++ fraction)
      .ok (.number (.float (.ofDecimal negative digits (exponent - fraction.length))), rest)

def words : List (List Char × Value) :=
  [("null".toList, .null),
   ("true".toList, .scalar (.bool true)),
   ("false".toList, .scalar (.bool false)),
   ("NaN".toList, .number (.float (.nan 0))),
   ("Infinity".toList, .number (.float (.infinite false))),
   ("-Infinity".toList, .number (.float (.infinite true)))]

def readSimple (s : List Char) : Read Value :=
  match words.find? fun word => word.1.isPrefixOf s with
  | some (word, value) => .ok (value, s.drop word.length)
  | none => readNumber s

/-! ### Values -/

mutual

/-- Reads the value that starts at `s`. Every call uses up a unit of fuel, and no two calls in a row read nothing. -/
def readValue : Nat → List Char → Read Value
  | 0, s => .error (.malformed .value s)
  | fuel + 1, s =>
    match s with
    | '"' :: _ =>
      match readString s with
      | .ok (text, rest) => .ok (.string text, rest)
      | .error stop => .error stop
    | '[' :: rest =>
      match skipBlank rest with
      | ']' :: rest => .ok (.list [], rest)
      | rest => readItems fuel [] rest
    | '{' :: rest =>
      match skipBlank rest with
      | '}' :: rest => .ok (.object [], rest)
      | rest => readFields fuel [] rest
    | _ => readSimple s

/-- Reads the items of a list from the first of those left; `items` holds the ones before, the last one first. -/
def readItems : Nat → List Value → List Char → Read Value
  | 0, _, s => .error (.malformed .value s)
  | fuel + 1, items, s =>
    match readValue fuel s with
    | .error stop => .error stop
    | .ok (item, rest) =>
      match skipBlank rest with
      | ']' :: rest => .ok (.list (item :: items).reverse, rest)
      | ',' :: rest => readItems fuel (item :: items) (skipBlank rest)
      | rest => .error (.malformed .comma rest)

def readFields : Nat → Fields → List Char → Read Value
  | 0, _, s => .error (.malformed .name s)
  | fuel + 1, fields, s =>
    match s with
    | '"' :: _ =>
      match readString s with
      | .error stop => .error stop
      | .ok (name, rest) =>
        match skipBlank rest with
        | ':' :: rest =>
          match readValue fuel (skipBlank rest) with
          | .error stop => .error stop
          | .ok (value, rest) =>
            let fields := fields.put (.string name) value
            match skipBlank rest with
            | '}' :: rest => .ok (.object fields, rest)
            | ',' :: rest => readFields fuel fields (skipBlank rest)
            | rest => .error (.malformed .comma rest)
        | rest => .error (.malformed .colon rest)
    | _ => .error (.malformed .name s)

end

def read (text : List Char) : Except ReadError Value :=
  let located : Stop → ReadError
    | .malformed fault rest => .malformed fault (text.length - rest.length)
    | .numeralTooLong digits => .numeralTooLong digits
  if text.head? = some '\ufeff' then .error (.malformed .byteOrderMark 0)
  else
    match readValue (2 * text.length + 2) (skipBlank text) with
    | .error stop => .error (located stop)
    | .ok (value, rest) =>
      match skipBlank rest with
      | [] => .ok value
      | rest => .error (located (.malformed .extraData rest))

end CompilerAdapter.Json
