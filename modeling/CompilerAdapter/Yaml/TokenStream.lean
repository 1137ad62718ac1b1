import CompilerAdapter.Yaml.BlockScalar
import CompilerAdapter.Yaml.PlainScalar
import CompilerAdapter.Yaml.QuotedScalar
import CompilerAdapter.Yaml.Token

/-! # The token stream

Indentation becomes tokens that open and close blocks. A scalar or collection may turn out to be a key once a colon
follows it on the same line; the tokens for that are then put in front of it. -/
namespace CompilerAdapter.Yaml

/-- A place where a key may have started: how many tokens come before it, and whether it has to be a key because it
stands at the indentation of its block. -/
structure KeyCandidate where
  tokensBefore : Nat
  required : Bool
  place : Cursor

def maxKeyLength : Nat := 1024

/-- How far the reading has come. Tokens are held newest first, indentations and key candidates innermost first. -/
structure Scan where
  place : Cursor
  tokens : List Token
  count : Nat
  indent : Int
  outerIndents : List Int
  candidate : Option KeyCandidate
  outerCandidates : List (Option KeyCandidate)
  keyAllowed : Bool

namespace Scan

def start (text : List Char) : Scan where
  place := .start text
  tokens := []
  count := 0
  indent := -1
  outerIndents := []
  candidate := none
  outerCandidates := []
  keyAllowed := true

def inFlow (s : Scan) : Bool := !s.outerCandidates.isEmpty

def emit (s : Scan) (token : Token) : Scan :=
  { s with tokens := token :: s.tokens, count := s.count + 1 }

def insert (s : Scan) (position : Nat) (token : Token) : Scan :=
  let later := s.count - position
  { s with tokens := s.tokens.take later ++ token :: s.tokens.drop later, count := s.count + 1 }

/-! ### Indentation -/

def closeBlocksFrom (column : Int) (s : Scan) : List Int → Scan
  | [] => s
  | outer :: rest =>
    if column < s.indent then closeBlocksFrom column { s.emit .blockEnd with indent := outer, outerIndents := rest } rest
    else s

def closeBlocks (column : Int) (s : Scan) : Scan :=
  if s.inFlow then s else closeBlocksFrom column s s.outerIndents

def openBlock (s : Scan) (column position : Nat) (token : Token) : Scan :=
  if s.indent < column then
    { s.insert position token with indent := column, outerIndents := s.indent :: s.outerIndents }
  else s

/-! ### Key candidates -/

/-- A candidate is out of reach on another line or too far on, which must not happen to a required one. -/
def expire (place : Cursor) (candidate : Option KeyCandidate) : Except Fault (Option KeyCandidate) :=
  match candidate with
  | none => .ok none
  | some k =>
    if k.place.line ≠ place.line ∨ k.place.index + maxKeyLength < place.index then
      if k.required then .error .malformed else .ok none
    else .ok (some k)

def expireAll (s : Scan) : Except Fault Scan := do
  let candidate ← expire s.place s.candidate
  let outer ← s.outerCandidates.mapM (expire s.place)
  return { s with candidate := candidate, outerCandidates := outer }

def dropCandidate (s : Scan) : Except Fault Scan :=
  if s.candidate.any (·.required) then .error .malformed else .ok { s with candidate := none }

def addCandidate (s : Scan) : Except Fault Scan :=
  if s.keyAllowed then do
    let s ← s.dropCandidate
    return { s with
      candidate := some
        { tokensBefore := s.count, required := !s.inFlow && s.indent == (s.place.column : Int), place := s.place } }
  else .ok s

/-! ### Tokens -/

/-- Skips blanks, comments and line breaks. A key may start on a new line. -/
def skipToToken : Nat → Scan → Scan
  | 0, s => s
  | fuel + 1, s =>
    let place := s.place.skipSpaces.skipComment
    match place.break? with
    | none => { s with place := place }
    | some (_, next) =>
      skipToToken fuel { s with place := next, keyAllowed := if s.inFlow then s.keyAllowed else true }

def skipByteOrderMark (s : Scan) : Scan :=
  if s.place.index = 0 ∧ s.place.head? = some '\ufeff' then { s with place := s.place.next } else s

def take (s : Scan) (size : Nat) (token : Token) (keyAllowed : Bool) : Scan :=
  { s.emit token with place := s.place.advance size, keyAllowed := keyAllowed }

def closeAll (s : Scan) : Except Fault Scan := (s.closeBlocks (-1)).dropCandidate

def openFlow (s : Scan) (token : Token) : Except Fault Scan := do
  let s ← s.addCandidate
  return { s.take 1 token true with candidate := none, outerCandidates := s.candidate :: s.outerCandidates }

def closeFlow (s : Scan) (token : Token) : Except Fault Scan := do
  let s ← s.dropCandidate
  match s.outerCandidates with
  | [] => throw .malformed
  | outer :: rest => return { s.take 1 token false with candidate := outer, outerCandidates := rest }

def flowEntry (s : Scan) : Except Fault Scan := do
  return (← s.dropCandidate).take 1 .flowEntry true

def blockEntry (s : Scan) : Except Fault Scan := do
  if !s.inFlow && !s.keyAllowed then throw .malformed
  let s := if s.inFlow then s else s.openBlock s.place.column s.count .blockSequenceStart
  return (← s.dropCandidate).take 1 .blockEntry true

def key (s : Scan) : Except Fault Scan := do
  if !s.inFlow && !s.keyAllowed then throw .malformed
  let s := if s.inFlow then s else s.openBlock s.place.column s.count .blockMappingStart
  return (← s.dropCandidate).take 1 .key (!s.inFlow)

def value (s : Scan) : Except Fault Scan := do
  match s.candidate with
  | some k =>
    let s := { s.insert k.tokensBefore .key with candidate := none }
    let s := if s.inFlow then s else s.openBlock k.place.column k.tokensBefore .blockMappingStart
    return s.take 1 .value false
  | none =>
    if !s.inFlow && !s.keyAllowed then throw .malformed
    let s := if s.inFlow then s else s.openBlock s.place.column s.count .blockMappingStart
    return s.take 1 .value (!s.inFlow)

def content (s : Scan) (read : Cursor → Except Fault (Token × Cursor)) : Except Fault Scan := do
  let s ← s.addCandidate
  let (token, place) ← read s.place
  return { s.emit token with place := place, keyAllowed := false }

def quotedScalar (s : Scan) (quote : Char) : Except Fault Scan :=
  s.content fun c => (QuotedScalar.read quote c).map fun (text, c) => (.scalar text false, c)

def plainScalar (s : Scan) : Except Fault Scan := do
  let s ← s.addCandidate
  let found := PlainScalar.read s.inFlow (s.indent + 1) s.place
  return { s.emit (.scalar found.text true) with place := found.rest, keyAllowed := found.broken }

def blockScalar (s : Scan) (folded : Bool) : Except Fault Scan := do
  let s ← s.dropCandidate
  let (text, place) ← BlockScalar.read folded s.indent s.place
  return { s.emit (.scalar text false) with place := place, keyAllowed := true }

def startsPlain (inFlow : Bool) (c : Char) (next : Option Char) : Bool :=
  !(isBlank c || isBreak c || "-?:,[]\x7b\x7d#&*!|>'\"%@\x60".toList.contains c) ||
    (!endsWord next && (c == '-' || (!inFlow && (c == '?' || c == ':'))))

inductive Progress where
  | further (s : Scan)
  | ended (tokens : List Token)

def step (s : Scan) : Except Fault Progress := do
  let s := s.skipByteOrderMark
  let s := skipToToken (s.place.size + 1) s
  let s ← s.expireAll
  let s := s.closeBlocks s.place.column
  let next := s.place.peek? 1
  match s.place.head? with
  | none => return .ended (← s.closeAll).tokens.reverse
  | some c =>
    if s.place.column = 0 ∧ c = '%' then
      let s ← s.closeAll
      let (token, place) ← Token.readDirective s.place
      return .further { s.emit token with place := place, keyAllowed := false }
    else if s.place.column = 0 ∧ s.place.hasMark '-' then
      return .further ((← s.closeAll).take 3 .documentStart false)
    else if s.place.column = 0 ∧ s.place.hasMark '.' then
      return .further ((← s.closeAll).take 3 .documentEnd false)
    else if c = '[' then .further <$> s.openFlow .flowSequenceStart
    else if c = '\x7b' then .further <$> s.openFlow .flowMappingStart
    else if c = ']' then .further <$> s.closeFlow .flowSequenceEnd
    else if c = '\x7d' then .further <$> s.closeFlow .flowMappingEnd
    else if c = ',' then .further <$> s.flowEntry
    else if c = '-' ∧ endsWord next then .further <$> s.blockEntry
    else if c = '?' ∧ (s.inFlow ∨ endsWord next) then .further <$> s.key
    else if c = ':' ∧ (s.inFlow ∨ endsWord next) then .further <$> s.value
    else if c = '*' then .further <$> s.content fun c => (Token.readName c).map fun (name, c) => (.alias name, c)
    else if c = '&' then .further <$> s.content fun c => (Token.readName c).map fun (name, c) => (.anchor name, c)
    else if c = '!' then .further <$> s.content Token.readTag
    else if c = '|' ∧ !s.inFlow then .further <$> s.blockScalar false
    else if c = '>' ∧ !s.inFlow then .further <$> s.blockScalar true
    else if c = '\'' ∨ c = '"' then .further <$> s.quotedScalar c
    else if startsPlain s.inFlow c next then .further <$> s.plainScalar
    else throw .malformed

/-- The tokens in front of everything that may turn out to be a key. -/
def settled (s : Scan) : List Token :=
  let counts := (s.candidate :: s.outerCandidates).filterMap fun candidate => candidate.map (·.tokensBefore)
  s.tokens.reverse.take (counts.foldl min s.count)

end Scan

/-- The tokens of a text as far as they can be had, and the fault that comes up behind them. Without one they go up to
the end of the text. -/
structure TokenStream where
  tokens : List Token
  fault : Option Fault

namespace TokenStream

def stopped (s : Scan) (fault : Fault) : TokenStream :=
  match s.expireAll with
  | .ok s => ⟨s.settled, some fault⟩
  | .error fault => ⟨[], some fault⟩

def ofScan : Nat → Scan → TokenStream
  | 0, s => stopped s .malformed
  | fuel + 1, s =>
    match s.step with
    | .ok (.further next) => ofScan fuel next
    | .ok (.ended tokens) => ⟨tokens, none⟩
    | .error fault => stopped s fault

def ofText (text : List Char) : TokenStream :=
  if text.all isAllowed then ofScan (text.length + 1) (.start text) else ⟨[], some .malformed⟩

end TokenStream

end CompilerAdapter.Yaml
