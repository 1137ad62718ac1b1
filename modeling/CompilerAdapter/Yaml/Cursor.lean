import CompilerAdapter.Yaml.Fault

/-! # Reading places

A place in a YAML text, with the line and column that indentation is measured by. -/
namespace CompilerAdapter.Yaml

/-! ### Characters -/

def isBreak (c : Char) : Bool :=
  c == '\n' || c == '\r' || c == '\u0085' || c == '\u2028' || c == '\u2029'

def isBlank (c : Char) : Bool := c == ' ' || c == '\t'

def isAllowed (c : Char) : Bool :=
  let n := c.toNat
  n == 0x09 || n == 0x0a || n == 0x0d || n == 0x85 ||
    (decide (0x20 ≤ n) && decide (n ≤ 0x7e)) || (decide (0xa0 ≤ n) && decide (n ≤ 0xfffd)) || decide (0x10000 ≤ n)

def isWordChar (c : Char) : Bool := c.isAlphanum || c == '-' || c == '_'

def endsLine (c : Option Char) : Bool := c.all isBreak

def endsItem (c : Option Char) : Bool := c.all fun c => c == ' ' || isBreak c

def endsWord (c : Option Char) : Bool := c.all fun c => isBlank c || isBreak c

/-- What stands for a line break and the breaks of the empty lines behind it, where lines are folded: a single line feed
is a space. -/
def foldBreaks (first : Char) (more : List Char) : List Char :=
  if first = '\n' then (if more.isEmpty then [' '] else more) else first :: more

/-! ### Places -/

structure Cursor where
  size : Nat
  rest : List Char
  index : Nat
  line : Nat
  column : Nat

namespace Cursor

def start (text : List Char) : Cursor := ⟨text.length, text, 0, 0, 0⟩

def head? (c : Cursor) : Option Char := c.rest.head?

def peek? (c : Cursor) (k : Nat) : Option Char := c.rest[k]?

/-- One character on. A byte order mark has no width, and CR LF ends one line. -/
def next (c : Cursor) : Cursor :=
  match c.rest with
  | [] => c
  | x :: rest =>
    if isBreak x && !(x == '\r' && rest.head? == some '\n') then
      { c with rest := rest, index := c.index + 1, line := c.line + 1, column := 0 }
    else { c with rest := rest, index := c.index + 1, column := if x = '\ufeff' then c.column else c.column + 1 }

def advance : Nat → Cursor → Cursor
  | 0, c => c
  | n + 1, c => advance n c.next

def span (c : Cursor) (p : Char → Bool) : List Char × Cursor :=
  let taken := c.rest.takeWhile p
  (taken, c.advance taken.length)

def skip (c : Cursor) (p : Char → Bool) : Cursor := (c.span p).2

def skipSpaces (c : Cursor) : Cursor := c.skip (· == ' ')

/-- The line break that is here, if any, and the place behind it. The Unicode separators stand for themselves, all
other breaks are line feeds. -/
def break? (c : Cursor) : Option (Char × Cursor) :=
  match c.rest with
  | '\r' :: '\n' :: _ => some ('\n', c.advance 2)
  | x :: _ => if isBreak x then some (if x = '\u2028' ∨ x = '\u2029' then x else '\n', c.next) else none
  | [] => none

def skipBreak (c : Cursor) : Cursor := (c.break?.map (·.2)).getD c

def skipComment (c : Cursor) : Cursor :=
  if c.head? = some '#' then c.skip (!isBreak ·) else c

def hasMark (c : Cursor) (mark : Char) : Bool :=
  c.rest.take 3 == [mark, mark, mark] && endsWord (c.peek? 3)

def atDocumentMark (c : Cursor) : Bool := c.hasMark '-' || c.hasMark '.'

def endLine (c : Cursor) : Except Fault Cursor :=
  let c := c.skipSpaces.skipComment
  if endsLine c.head? then .ok c.skipBreak else .error .malformed

end Cursor

end CompilerAdapter.Yaml
