import CompilerAdapter.Text.Encoding
import CompilerAdapter.Yaml.Cursor

/-! # Tokens

The tokens of a YAML text, and the reading of those that name things: directives, anchors and tags. -/
namespace CompilerAdapter.Yaml

inductive Directive where
  | version (major : Nat)
  | tagHandle (handle expansion : List Char)
  | other
  deriving DecidableEq

inductive Token where
  | directive (found : Directive)
  | documentStart
  | documentEnd
  | blockSequenceStart
  | blockMappingStart
  | blockEnd
  | flowSequenceStart
  | flowSequenceEnd
  | flowMappingStart
  | flowMappingEnd
  | blockEntry
  | flowEntry
  | key
  | value
  | alias (name : List Char)
  | anchor (name : List Char)
  /-- A tag as it is written: a handle to be expanded, if any, and the rest. -/
  | tag (handle : Option (List Char)) (rest : List Char)
  | scalar (text : List Char) (plain : Bool)
  deriving DecidableEq

namespace Token

/-! ### Anchors and aliases -/

def readName (c : Cursor) : Except Fault (List Char × Cursor) :=
  let (name, c) := c.next.span isWordChar
  if name.isEmpty then .error .malformed
  else if endsWord c.head? || c.head?.any fun x => "?:,]\x7d%@\x60".toList.contains x then .ok (name, c)
  else .error .malformed

/-! ### Tags -/

def isTagChar (c : Char) : Bool := c.isAlphanum || "-;/?:@&=+$,_.!~*'()[]".toList.contains c

def escapedBytes : Nat → Cursor → Except Fault (List UInt8 × Cursor)
  | 0, c => .ok ([], c)
  | fuel + 1, c =>
    if c.head? = some '%' then
      match (c.peek? 1).bind hexValue?, (c.peek? 2).bind hexValue? with
      | some high, some low =>
        (escapedBytes fuel (c.advance 3)).map fun (bytes, c) => (UInt8.ofNat (high * 16 + low) :: bytes, c)
      | _, _ => .error .malformed
    else .ok ([], c)

def readTagChars : Nat → List Char → Cursor → Except Fault (List Char × Cursor)
  | 0, text, c => .ok (text, c)
  | fuel + 1, text, c =>
    let (plain, c) := c.span isTagChar
    if c.head? = some '%' then
      match escapedBytes c.size c with
      | .error fault => .error fault
      | .ok (bytes, c) =>
        match Utf8.decode bytes with
        | .ok chars => readTagChars fuel (text ++ plain ++ chars) c
        | .error _ => .error .malformed
    else if (text ++ plain).isEmpty then .error .malformed
    else .ok (text ++ plain, c)

def readTagText (c : Cursor) : Except Fault (List Char × Cursor) := readTagChars (c.size + 1) [] c

def readHandle (c : Cursor) : Except Fault (List Char × Cursor) :=
  if c.head? ≠ some '!' then .error .malformed
  else if c.peek? 1 = some ' ' then .ok (['!'], c.next)
  else
    let (word, c) := c.next.span isWordChar
    if c.head? = some '!' then .ok ('!' :: word ++ ['!'], c.next) else .error .malformed

/-- Whether another exclamation mark comes before the next space or line end. -/
def hasLongHandle (c : Cursor) : Bool :=
  (c.rest.takeWhile fun x => !(x == ' ' || isBreak x)).contains '!'

def readTag (c : Cursor) : Except Fault (Token × Cursor) := do
  let (token, c) ←
    if c.peek? 1 = some '<' then do
      let (text, c) ← readTagText (c.advance 2)
      if c.head? = some '>' then pure (Token.tag none text, c.next) else throw .malformed
    else if endsWord (c.peek? 1) then pure (Token.tag none ['!'], c.next)
    else if hasLongHandle c.next then do
      let (handle, c) ← readHandle c
      let (text, c) ← readTagText c
      pure (Token.tag (some handle) text, c)
    else do
      let (text, c) ← readTagText c.next
      pure (Token.tag (some ['!']) text, c)
  if endsItem c.head? then return (token, c) else throw .malformed

/-! ### Directives -/

def readNumber (c : Cursor) : Except Fault (Nat × Cursor) :=
  let (digits, c) := c.span Char.isDigit
  if digits.isEmpty then .error .malformed
  else
    match Numeral.read digits with
    | .ok n => .ok (n, c)
    | .error count => .error (.numeralTooLong count)

def readVersion (c : Cursor) : Except Fault (Directive × Cursor) := do
  let (major, c) ← readNumber c.skipSpaces
  if c.head? ≠ some '.' then throw .malformed
  let (_, c) ← readNumber c.next
  if endsItem c.head? then return (.version major, c) else throw .malformed

def readTagHandle (c : Cursor) : Except Fault (Directive × Cursor) := do
  let (handle, c) ← readHandle c.skipSpaces
  if c.head? ≠ some ' ' then throw .malformed
  let (expansion, c) ← readTagText c.skipSpaces
  if endsItem c.head? then return (.tagHandle handle expansion, c) else throw .malformed

def readDirective (c : Cursor) : Except Fault (Token × Cursor) := do
  let (name, c) := c.next.span isWordChar
  if name.isEmpty || !endsItem c.head? then throw .malformed
  let (found, c) ←
    if name = "YAML".toList then readVersion c
    else if name = "TAG".toList then readTagHandle c
    else pure (Directive.other, c.skip (!isBreak ·))
  let c ← c.endLine
  return (.directive found, c)

end Token

end CompilerAdapter.Yaml
