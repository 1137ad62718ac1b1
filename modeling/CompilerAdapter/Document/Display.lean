import CompilerAdapter.Document.MemberOrder
import CompilerAdapter.Number.Basic
import CompilerAdapter.Text.Quoted

/-! # Values in messages

The names of the types of values, and the text that messages show for a value. -/
namespace CompilerAdapter

/-- Numbers in messages: a point among the digits for exponents from -4 to 15, else an exponent of two digits or more. -/
def displayStyle : FloatStyle where
  positionalFrom := -4
  positionalBelow := 16
  exponentWidth := 2
  infinity := "inf"
  notANumber := "nan"

namespace Scalar

def typeName : Scalar → String
  | .null => "NoneType"
  | .bool _ => "bool"
  | .number (.int _) => "int"
  | .number (.float _) => "float"
  | .string _ => "str"
  | .bytes _ => "bytes"
  | .date _ => "datetime.date"
  | .timestamp _ => "datetime.datetime"

def call (name : String) (args : List (List Char)) : List Char :=
  name.toList ++ '(' :: [',', ' '].intercalate args ++ [')']

def displayOffset (minutes : Int) : List Char :=
  if minutes = 0 then "datetime.timezone.utc".toList
  else call "datetime.timezone" [call "datetime.timedelta" (Calendar.durationParts minutes)]

/-- The text shown for a timestamp: its numbers down to the last one that says something, minutes included. -/
def displayTimestamp (t : Timestamp) : List Char :=
  let micro := if t.microsecond = 0 then [] else [t.microsecond]
  let seconds := if t.second = 0 ∧ micro.isEmpty then [] else [t.second]
  let numbers := [t.date.year, t.date.month, t.date.day, t.hour, t.minute] ++ seconds ++ micro
  call "datetime.datetime" (numbers.map (Nat.toDigits 10) ++
    (t.offset.map fun minutes => "tzinfo=".toList ++ displayOffset minutes).toList)

def display : Scalar → List Char
  | .null => "None".toList
  | .bool true => "True".toList
  | .bool false => "False".toList
  | .number n => n.text displayStyle
  | .string s => quoted s.toList
  | .bytes content => 'b' :: quotedBytes content
  | .date d => call "datetime.date" ([d.year, d.month, d.day].map (Nat.toDigits 10))
  | .timestamp t => displayTimestamp t

def plain : Scalar → List Char
  | .string s => s.toList
  | .date d => d.text
  | .timestamp t => t.text
  | other => other.display

def isWritable : Scalar → Bool
  | .number n => n.isWritable
  | _ => true

end Scalar

namespace Value

def typeName : Value → String
  | .scalar s => s.typeName
  | .list _ | .enclosing true => "list"
  | .object _ | .enclosing false => "dict"
  | .pair _ _ => "tuple"
  | .set _ => "set"

def displaySet (members : List Scalar) : List Char :=
  if members.isEmpty then "set()".toList
  else '\x7b' :: [',', ' '].intercalate ((inMemberOrder members).map Scalar.display) ++ ['\x7d']

mutual

/-- The text shown for a value: `[1, 'a']`, or `key: value` pairs in braces. Dots stand for a collection around. -/
def display : Value → List Char
  | .scalar s => s.display
  | .list [] => ['[', ']']
  | .list (v :: rest) => '[' :: (display v ++ displayItems rest) ++ [']']
  | .object [] => ['{', '}']
  | .object ((k, v) :: rest) => '{' :: (k.display ++ ':' :: ' ' :: (display v ++ displayFields rest)) ++ ['}']
  | .pair a b => '(' :: (display a ++ ',' :: ' ' :: display b) ++ [')']
  | .set members => displaySet members
  | .enclosing true => "[...]".toList
  | .enclosing false => "\x7b...\x7d".toList

def displayItems : List Value → List Char
  | [] => []
  | v :: rest => ',' :: ' ' :: (display v ++ displayItems rest)

def displayFields : List (Scalar × Value) → List Char
  | [] => []
  | (k, v) :: rest => ',' :: ' ' :: (k.display ++ ':' :: ' ' :: (display v ++ displayFields rest))

end

mutual

def isWritable : Value → Bool
  | .scalar s => s.isWritable
  | .list items => areWritable items
  | .object fields => fieldsAreWritable fields
  | .pair a b => isWritable a && isWritable b
  | .set members => members.all Scalar.isWritable
  | .enclosing _ => true

def areWritable : List Value → Bool
  | [] => true
  | v :: rest => isWritable v && areWritable rest

def fieldsAreWritable : List (Scalar × Value) → Bool
  | [] => true
  | (k, v) :: rest => k.isWritable && isWritable v && fieldsAreWritable rest

end

end Value

end CompilerAdapter
