import CompilerAdapter.Yaml.Cursor

/-! # Block scalars

Scalars that consist of whole lines, indented under a header: literal ones keep their line breaks, folded ones join
lines of text. -/
namespace CompilerAdapter.Yaml.BlockScalar

inductive Chomping where
  | strip
  | clip
  | keep
  deriving DecidableEq

structure Header where
  folded : Bool
  chomping : Chomping
  indent : Option Nat

def chomping? : Option Char → Option Chomping
  | some '+' => some .keep
  | some '-' => some .strip
  | _ => none

def indentDigit? (c : Option Char) : Option Nat :=
  (c.filter Char.isDigit).map fun d => d.toNat - '0'.toNat

def readHeader (folded : Bool) (c : Cursor) : Except Fault (Header × Cursor) :=
  let (chomping, c) := ((chomping? c.head?).map fun k => (some k, c.next)).getD (none, c)
  let (indent, c) := ((indentDigit? c.head?).map fun d => (some d, c.next)).getD (none, c)
  let (chomping, c) :=
    if chomping.isNone ∧ indent.isSome then ((chomping? c.head?).map fun k => (some k, c.next)).getD (none, c)
    else (chomping, c)
  if indent = some 0 || !endsItem c.head? then .error .malformed
  else c.endLine.map fun c => (⟨folded, chomping.getD .clip, indent⟩, c)

/-- The empty lines in front of the first line of text: their breaks, the last one first, the greatest column that is
reached, and the place behind them. -/
def leading : Nat → List Char → Nat → Cursor → List Char × Nat × Cursor
  | 0, breaks, widest, c => (breaks, widest, c)
  | fuel + 1, breaks, widest, c =>
    if c.head? = some ' ' then leading fuel breaks (max widest c.next.column) c.next
    else
      match c.break? with
      | none => (breaks, widest, c)
      | some (b, c) => leading fuel (b :: breaks) widest c

def skipIndent (indent : Nat) : Nat → Cursor → Cursor
  | 0, c => c
  | fuel + 1, c => if c.column < indent ∧ c.head? = some ' ' then skipIndent indent fuel c.next else c

def emptyLines (indent : Nat) : Nat → List Char → Cursor → List Char × Cursor
  | 0, breaks, c => (breaks, c)
  | fuel + 1, breaks, c =>
    let c := skipIndent indent indent c
    match c.break? with
    | none => (breaks, c)
    | some (b, c) => emptyLines indent fuel (b :: breaks) c

/-- What stands between a line of text and the next one in a folded scalar, besides the empty lines. -/
def joint (folded : Bool) (lineBreak : List Char) (starts goesOn : Bool) (breaks : List Char) : List Char :=
  if folded && lineBreak == ['\n'] && starts && goesOn then (if breaks.isEmpty then [' '] else [])
  else lineBreak

def startsText (c : Cursor) : Bool := c.head?.any (!isBlank ·)

def readLines (header : Header) (indent : Nat) : Nat → List Char → List Char → Cursor → List Char × Cursor
  | 0, text, _, c => (text, c)
  | fuel + 1, text, breaks, c =>
    let starts := startsText c
    let (line, c) := c.span (!isBreak ·)
    let text := text ++ breaks ++ line
    let (lineBreak, c) := (c.break?.map fun (b, c) => ([b], c)).getD ([], c)
    let (later, c) := emptyLines indent (c.size + 1) [] c
    let breaks := later.reverse
    if c.column = indent ∧ !c.rest.isEmpty then
      readLines header indent fuel (text ++ joint header.folded lineBreak starts (startsText c) breaks) breaks c
    else
      let text := if header.chomping = .strip then text else text ++ lineBreak
      (if header.chomping = .keep then text ++ breaks else text, c)

def read (folded : Bool) (outer : Int) (c : Cursor) : Except Fault (List Char × Cursor) := do
  let (header, c) ← readHeader folded c.next
  let least := (max (outer + 1) 1).toNat
  let (indent, breaks, c) :=
    match header.indent with
    | some n =>
      let indent := least + n - 1
      let (breaks, c) := emptyLines indent (c.size + 1) [] c
      (indent, breaks, c)
    | none =>
      let (breaks, widest, c) := leading (c.size + 1) [] 0 c
      (max least widest, breaks, c)
  if c.column = indent ∧ !c.rest.isEmpty then
    return readLines header indent (c.size + 1) [] breaks.reverse c
  else
    return (if header.chomping = .keep then breaks.reverse else [], c)

end CompilerAdapter.Yaml.BlockScalar
