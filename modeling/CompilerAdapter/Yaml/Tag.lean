import CompilerAdapter.Regex.Basic

/-! # Tags

The tag of a node says what kind of value it is. A plain scalar without a tag gets one by the look of its text. -/
namespace CompilerAdapter.Yaml

inductive Tag where
  | null
  | bool
  | int
  | float
  | str
  | binary
  | timestamp
  | seq
  /-- A list of pairs, each written as a mapping of one entry. -/
  | pairs
  | map
  /-- A set, written as a mapping whose values do not count. -/
  | set
  | merge
  | default
  | unknown
  deriving DecidableEq, Repr

namespace Tag

def standard : List Char := "tag:yaml.org,2002:".toList

def names : List (String × Tag) :=
  [("null", .null), ("bool", .bool), ("int", .int), ("float", .float), ("str", .str), ("seq", .seq), ("map", .map),
   ("binary", .binary), ("timestamp", .timestamp), ("omap", .pairs), ("pairs", .pairs), ("set", .set), ("merge", .merge),
   ("value", .default)]

def ofName (name : List Char) : Tag :=
  ((names.find? fun entry => standard ++ entry.1.toList == name).map (·.2)).getD .unknown

/-! ### The look of texts -/

def oneOf (ranges : List (Char × Char)) : Regex := .char (.within ranges)

def anyNumber (r : Regex) : Regex := .repeated .zeroOrMore false r

def oneOrMore (r : Regex) : Regex := .repeated .oneOrMore false r

def maybe (r : Regex) : Regex := .repeated .optional false r

def digit : Regex := oneOf [('0', '9')]

def digitOrLine : Regex := oneOf [('0', '9'), ('_', '_')]

def sign : Regex := oneOf [('-', '-'), ('+', '+')]

def word (s : String) : Regex := .literal s.toList

def words (first : String) (more : List String) : Regex := .choice (word first) (more.map word)

def sixties : Regex := oneOrMore (.sequence [word ":", maybe (oneOf [('0', '5')]), digit])

def exponent : Regex := maybe (.sequence [oneOf [('e', 'e'), ('E', 'E')], sign, oneOrMore digit])

def boolPattern : Pattern :=
  ⟨.seq (words "yes" ["Yes", "YES", "no", "No", "NO", "true", "True", "TRUE", "false", "False", "FALSE", "on", "On", "ON",
    "off", "Off", "OFF"]) .finish⟩

def floatPattern : Pattern :=
  ⟨.seq (.choice (.sequence [maybe sign, digit, anyNumber digitOrLine, word ".", anyNumber digitOrLine, exponent])
    [.sequence [word ".", digit, anyNumber digitOrLine, exponent],
     .sequence [maybe sign, digit, anyNumber digitOrLine, sixties, word ".", anyNumber digitOrLine],
     .sequence [maybe sign, word ".", words "inf" ["Inf", "INF"]],
     .sequence [word ".", words "nan" ["NaN", "NAN"]]]) .finish⟩

def intPattern : Pattern :=
  let leading := oneOf [('1', '9')]
  ⟨.sequence [maybe sign, .choice (.sequence [word "0b", oneOrMore (oneOf [('0', '1'), ('_', '_')])])
    [.sequence [word "0", oneOrMore (oneOf [('0', '7'), ('_', '_')])],
     word "0",
     .sequence [leading, anyNumber digitOrLine],
     .sequence [word "0x", oneOrMore (oneOf [('0', '9'), ('a', 'f'), ('A', 'F'), ('_', '_')])],
     .sequence [leading, anyNumber digitOrLine, sixties]], .finish]⟩

def nullPattern : Pattern := ⟨.seq (words "~" ["null", "Null", "NULL"]) .finish⟩

def times (n : Nat) (r : Regex) : Regex := .sequence (List.replicate n r)

def timestampPattern : Pattern :=
  let one := Regex.seq digit (maybe digit)
  let blanks := oneOf [(' ', ' '), ('\t', '\t')]
  let offset := .choice (word "Z") [.sequence [sign, one, maybe (.seq (word ":") (times 2 digit))]]
  ⟨.seq (.choice (.sequence [times 4 digit, word "-", times 2 digit, word "-", times 2 digit])
    [.sequence [times 4 digit, word "-", one, word "-", one, .choice (oneOf [('T', 'T'), ('t', 't')]) [oneOrMore blanks],
      one, word ":", times 2 digit, word ":", times 2 digit, maybe (.seq (word ".") (anyNumber digit)),
      maybe (.seq (anyNumber blanks) offset)]]) .finish⟩

def indicatorPattern : Pattern := ⟨.seq (words "!" ["&", "*"]) .finish⟩

def patterns : List (Pattern × Tag) :=
  [(boolPattern, .bool), (floatPattern, .float), (intPattern, .int), (⟨.seq (word "<<") .finish⟩, .merge),
   (nullPattern, .null), (timestampPattern, .timestamp), (⟨.seq (word "=") .finish⟩, .default),
   (indicatorPattern, .unknown)]

def ofText (text : List Char) : Tag :=
  if text.isEmpty then .null
  else ((patterns.find? fun entry => entry.1.test (· == ·) text).map (·.2)).getD .str

end Tag

end CompilerAdapter.Yaml
