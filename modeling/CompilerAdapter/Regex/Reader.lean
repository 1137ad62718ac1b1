import CompilerAdapter.Regex.Basic

/-! # Reading expressions

The expression that a text stands for, found in one pass over the text. A text that is no expression is refused, and so
is one that says what no wildcard needs: it escapes a letter or digit, has a range in it or counts repetitions. -/
namespace CompilerAdapter.Regex

inductive Fault where
  | nothingToRepeat
  | multipleRepeat
  | escape (c : Char)
  | danglingEscape
  | unterminatedSet
  | unterminatedGroup
  | unbalancedParenthesis
  | extension (c : Char)
  | unread (c : Char)
  /-- Not all that the text may match starts at the start of a text. -/
  | untied
  deriving DecidableEq, Repr

structure Level where
  ahead : Bool
  before : Option Regex
  /-- What the last alternative consists of so far, the latest first. -/
  items : List Regex
  deriving DecidableEq, Repr

namespace Level

def start : Level := ⟨false, none, []⟩

def push (level : Level) (item : Regex) : Level := { level with items := item :: level.items }

def regex (level : Level) : Regex :=
  match level.before with
  | none => .sequence level.items.reverse
  | some left => .alt left (.sequence level.items.reverse)

def closed (level : Level) : Regex := if level.ahead then .notAhead level.regex else .group level.regex

/-- Repeats what was read last. What is repeated already may only be made lazy, by a question mark. -/
def repeatLast (times : Repetition) (level : Level) : Except Fault Level :=
  match level.items with
  | [] => .error .nothingToRepeat
  | .finish :: _ => .error .nothingToRepeat
  | .repeated done isLazy inner :: rest =>
    if times = .optional ∧ isLazy = false then .ok { level with items := .repeated done true inner :: rest }
    else .error .multipleRepeat
  | item :: rest => .ok { level with items := .repeated times false item :: rest }

end Level

inductive Mode where
  | plain
  | escape
  | extension
  | bracket
  /-- A set of characters that do not pass, of which these are read, the latest first. -/
  | excluded (chars : List Char)
  deriving DecidableEq, Repr

structure State where
  mode : Mode
  level : Level
  outer : List Level
  deriving DecidableEq, Repr

namespace State

def start : State := ⟨.plain, .start, []⟩

def plainStep (level : Level) (outer : List Level) (c : Char) : Except Fault State :=
  match c with
  | '\\' => .ok ⟨.escape, level, outer⟩
  | '[' => .ok ⟨.bracket, level, outer⟩
  | '(' => .ok ⟨.plain, .start, level :: outer⟩
  | ')' =>
    match outer with
    | [] => .error .unbalancedParenthesis
    | next :: rest => .ok ⟨.plain, next.push level.closed, rest⟩
  | '|' => .ok ⟨.plain, ⟨level.ahead, some level.regex, []⟩, outer⟩
  | '.' => .ok ⟨.plain, level.push (.char .any), outer⟩
  | '$' => .ok ⟨.plain, level.push .finish, outer⟩
  | '*' => do return ⟨.plain, ← level.repeatLast .zeroOrMore, outer⟩
  | '+' => do return ⟨.plain, ← level.repeatLast .oneOrMore, outer⟩
  | '?' =>
    -- Right behind an opening parenthesis there is nothing to repeat, and the question mark belongs to it.
    if level = .start ∧ outer ≠ [] then .ok ⟨.extension, level, outer⟩
    else do return ⟨.plain, ← level.repeatLast .optional, outer⟩
  | '^' => .error (.unread c)
  | '{' => .error (.unread c)
  | _ => .ok ⟨.plain, level.push (.char (.only c)), outer⟩

def step : State → Char → Except Fault State
  | ⟨.plain, level, outer⟩, c => plainStep level outer c
  | ⟨.escape, level, outer⟩, c =>
    if c.isAlphanum then .error (.escape c) else .ok ⟨.plain, level.push (.char (.only c)), outer⟩
  | ⟨.extension, level, outer⟩, c =>
    if c = '!' then .ok ⟨.plain, { level with ahead := true }, outer⟩ else .error (.extension c)
  | ⟨.bracket, level, outer⟩, c =>
    if c = '^' then .ok ⟨.excluded [], level, outer⟩ else .error (.unread c)
  | ⟨.excluded chars, level, outer⟩, c =>
    if c = ']' ∧ chars ≠ [] then .ok ⟨.plain, level.push (.char (.noneOf chars.reverse)), outer⟩
    else if c = '\\' ∨ c = '-' then .error (.unread c)
    else .ok ⟨.excluded (c :: chars), level, outer⟩

def readOn (state : State) (text : List Char) : Except Fault State := text.foldlM step state

def finish : State → Except Fault Regex
  | ⟨.plain, level, []⟩ => .ok level.regex
  | ⟨.escape, _, _⟩ => .error .danglingEscape
  | ⟨.bracket, _, _⟩ => .error .unterminatedSet
  | ⟨.excluded _, _, _⟩ => .error .unterminatedSet
  | ⟨_, _, _⟩ => .error .unterminatedGroup

end State

def read (text : List Char) : Except Fault Regex := do (← State.start.readOn text).finish

end CompilerAdapter.Regex

namespace CompilerAdapter

/-- The pattern with an expression behind the mark for the start of a text, which ties only the first of several
alternatives. -/
def Pattern.tie : Regex → Except Regex.Fault Pattern
  | .alt _ _ => .error .untied
  | body => .ok ⟨body⟩

def Pattern.read : List Char → Except Regex.Fault Pattern
  | '^' :: text => do Pattern.tie (← Regex.read text)
  | _ => .error .untied

example : Pattern.read "^(a|.*?)*".toList =
    .ok ⟨.sequence [.repeated .zeroOrMore false (.group (.alt (.sequence [.char (.only 'a')])
      (.sequence [.repeated .zeroOrMore true (.char .any)])))]⟩ := rfl

example : Pattern.read "^(a**)".toList = .error .multipleRepeat ∧ Pattern.read "^(?!*)".toList = .error .nothingToRepeat ∧
    Pattern.read "^((a)".toList = .error .unterminatedGroup ∧ Pattern.read "^\\q".toList = .error (.escape 'q') :=
  ⟨rfl, rfl, rfl, rfl⟩

end CompilerAdapter
