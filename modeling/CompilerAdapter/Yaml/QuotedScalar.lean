import CompilerAdapter.Text.Encoding
import CompilerAdapter.Yaml.Cursor

/-! # Quoted scalars

Scalars between single quotes, where a quote is written twice, or between double quotes, where backslashes escape. -/
namespace CompilerAdapter.Yaml.QuotedScalar

def escaped? : Char → Option Char
  | '0' => some '\x00'
  | 'a' => some '\x07'
  | 'b' => some '\x08'
  | 't' => some '\t'
  | '\t' => some '\t'
  | 'n' => some '\n'
  | 'v' => some '\x0b'
  | 'f' => some '\x0c'
  | 'r' => some '\r'
  | 'e' => some '\x1b'
  | ' ' => some ' '
  | '"' => some '"'
  | '\\' => some '\\'
  | '/' => some '/'
  | 'N' => some '\u0085'
  | '_' => some '\u00a0'
  | 'L' => some '\u2028'
  | 'P' => some '\u2029'
  | _ => none

def codeWidth? : Char → Option Nat
  | 'x' => some 2
  | 'u' => some 4
  | 'U' => some 8
  | _ => none

/-- The character whose code point is spelled by `width` digits here; a surrogate stands as the replacement character. -/
def codePoint (width : Nat) (c : Cursor) : Except Fault Char :=
  let digits := c.rest.take width
  match hexNumber? digits with
  | none => .error .malformed
  | some n =>
    if digits.length < width then .error .malformed
    else if 0x10ffff < n then .error (.codePointTooLarge (decide (0x7fffffff < n)))
    else .ok (if n.isValidChar then Char.ofNat n else '\ufffd')

def gatherBreaks : Nat → List Char → Cursor → Except Fault (List Char × Cursor)
  | 0, breaks, c => .ok (breaks, c)
  | fuel + 1, breaks, c =>
    if c.atDocumentMark then .error .malformed
    else
      let c := c.skip isBlank
      match c.break? with
      | none => .ok (breaks, c)
      | some (b, c) => gatherBreaks fuel (b :: breaks) c

def spacing (c : Cursor) : Except Fault (List Char × Cursor) :=
  let (blanks, c) := c.span isBlank
  match c.break? with
  | none => if c.rest.isEmpty then .error .malformed else .ok (blanks, c)
  | some (first, c) =>
    (gatherBreaks (c.size + 1) [] c).map fun (breaks, c) => (foldBreaks first breaks.reverse, c)

/-- Reads an escape from behind its backslash. An escaped line break joins the lines. -/
def readEscape (c : Cursor) : Except Fault (List Char × Cursor) :=
  match c.head? with
  | none => .error .malformed
  | some e =>
    match escaped? e, codeWidth? e with
    | some d, _ => .ok ([d], c.next)
    | none, some width => (codePoint width c.next).map fun d => ([d], c.next.advance width)
    | none, none =>
      if isBreak e then (gatherBreaks (c.size + 1) [] c.skipBreak).map fun (breaks, c) => (breaks.reverse, c)
      else .error .malformed

def readFrom (quote : Char) : Nat → List Char → Cursor → Except Fault (List Char × Cursor)
  | 0, _, _ => .error .malformed
  | fuel + 1, text, c =>
    match c.head? with
    | none => .error .malformed
    | some x =>
      if x = quote then
        if quote = '\'' ∧ c.peek? 1 = some '\'' then readFrom quote fuel ('\'' :: text) (c.advance 2)
        else .ok (text.reverse, c.next)
      else if isBlank x || isBreak x then
        match spacing c with
        | .ok (space, c) => readFrom quote fuel (space.reverse ++ text) c
        | .error fault => .error fault
      else if x = '\\' ∧ quote = '"' then
        match readEscape c.next with
        | .ok (chars, c) => readFrom quote fuel (chars.reverse ++ text) c
        | .error fault => .error fault
      else readFrom quote fuel (x :: text) c.next

def read (quote : Char) (c : Cursor) : Except Fault (List Char × Cursor) :=
  readFrom quote (c.size + 1) [] c.next

end CompilerAdapter.Yaml.QuotedScalar
