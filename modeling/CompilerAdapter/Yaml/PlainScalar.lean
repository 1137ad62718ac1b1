import CompilerAdapter.Yaml.Cursor

/-! # Plain scalars

Scalars without quotes. They may go on over several lines: a single line break is a space, and further ones stand for
themselves. -/
namespace CompilerAdapter.Yaml.PlainScalar

def runLength (inFlow : Bool) : List Char → Nat
  | [] => 0
  | c :: rest =>
    let colonEnds := c == ':' &&
      (endsWord rest.head? || (inFlow && rest.head?.any fun d => ",[]{}".toList.contains d))
    if isBlank c || isBreak c || colonEnds || (inFlow && ",?[]{}".toList.contains c) then 0
    else runLength inFlow rest + 1

def gatherBreaks : Nat → List Char → Cursor → Option (List Char) × Cursor
  | 0, breaks, c => (some breaks, c)
  | fuel + 1, breaks, c =>
    if c.head? = some ' ' then gatherBreaks fuel breaks c.next
    else
      match c.break? with
      | none => (some breaks, c)
      | some (b, c) => if c.atDocumentMark then (none, c) else gatherBreaks fuel (b :: breaks) c

/-- The space between two runs of a scalar, whether it holds a line break, and the place behind it. It is empty where
the scalar ends. -/
def spacing (c : Cursor) : List Char × Bool × Cursor :=
  let (spaces, c) := c.span (· == ' ')
  match c.break? with
  | none => (spaces, false, c)
  | some (first, c) =>
    if c.atDocumentMark then ([], true, c)
    else
      match gatherBreaks c.size [] c with
      | (none, c) => ([], true, c)
      | (some breaks, c) => (foldBreaks first breaks.reverse, true, c)

structure Found where
  text : List Char
  broken : Bool
  rest : Cursor

/-- Goes on with the next run of a scalar; `text` is what has been read, and `between` what stands between. -/
def readRuns (inFlow : Bool) (indent : Int) (text between : List Char) (broken : Bool) : Nat → Cursor → Found
  | 0, c => ⟨text, broken, c⟩
  | fuel + 1, c =>
    let size := if c.head? = some '#' then 0 else runLength inFlow c.rest
    if size = 0 then ⟨text, broken, c⟩
    else
      let text := text ++ between ++ c.rest.take size
      let (between, broken, c) := spacing (c.advance size)
      if between.isEmpty || c.head? == some '#' || (!inFlow && decide ((c.column : Int) < indent)) then
        ⟨text, broken, c⟩
      else readRuns inFlow indent text between broken fuel c

/-- Reads the scalar that starts here. Outside of flow collections it ends where a line is indented by less than
`indent`. -/
def read (inFlow : Bool) (indent : Int) (c : Cursor) : Found :=
  readRuns inFlow indent [] [] false (c.size + 1) c

end CompilerAdapter.Yaml.PlainScalar
