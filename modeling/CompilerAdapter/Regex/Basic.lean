import CompilerAdapter.Text.CharacterClass

/-! # Regular expressions

The expressions that wildcards and schemas need, and the text each one is written as. -/
namespace CompilerAdapter

inductive CharTest where
  | only (c : Char)
  | noneOf (chars : List Char)
  /-- Any character that does not end a line. -/
  | any
  | digit
  | within (ranges : List (Char × Char))
  deriving DecidableEq, Repr

inductive Repetition where
  | zeroOrMore
  | oneOrMore
  | optional
  deriving DecidableEq, Repr

inductive Regex where
  | empty
  | char (test : CharTest)
  | seq (first second : Regex)
  | alt (left right : Regex)
  | group (inner : Regex)
  /-- As many repetitions as possible are tried first, or as few if `lazy` holds. -/
  | repeated (times : Repetition) (lazy : Bool) (inner : Regex)
  | notAhead (inner : Regex)
  /-- The end of the text, or a line feed that ends it. -/
  | finish
  deriving DecidableEq, Repr

def isReserved (c : Char) : Bool :=
  !(c.isAlphanum || c == '_' || c == '/' || c == ' ' || (decide (0x09 ≤ c.toNat) && decide (c.toNat ≤ 0x0d)))

namespace CharTest

def source : CharTest → List Char
  | .only c => if isReserved c then ['\\', c] else [c]
  | .noneOf chars => '[' :: '^' :: chars ++ [']']
  | .any => ['.']
  | .digit => ['\\', 'd']
  | .within ranges =>
    '[' :: ranges.flatMap (fun range => if range.1 = range.2 then [range.1] else [range.1, '-', range.2]) ++ [']']

/-- Whether a character passes, with `same` to compare it with the characters that the test names one by one. -/
def accepts (same : Char → Char → Bool) : CharTest → Char → Bool
  | .only c, x => same c x
  | .noneOf chars, x => !chars.any (same · x)
  | .any, x => x != '\n'
  | .digit, x => isDecimalDigit x
  | .within ranges, x => ranges.any fun range => decide (range.1 ≤ x) && decide (x ≤ range.2)

end CharTest

def Repetition.source : Repetition → Char
  | .zeroOrMore => '*'
  | .oneOrMore => '+'
  | .optional => '?'

namespace Regex

def source : Regex → List Char
  | .empty => []
  | .char test => test.source
  | .seq first second => first.source ++ second.source
  | .alt left right => left.source ++ '|' :: right.source
  | .group inner => '(' :: inner.source ++ [')']
  | .repeated times isLazy inner => inner.source ++ times.source :: (if isLazy then ['?'] else [])
  | .notAhead inner => ['(', '?', '!'] ++ inner.source ++ [')']
  | .finish => ['$']

def literal : List Char → Regex
  | [] => .empty
  | c :: rest => .seq (.char (.only c)) (literal rest)

def sequence : List Regex → Regex
  | [] => .empty
  | r :: rest => .seq r (sequence rest)

def choice : Regex → List Regex → Regex
  | r, [] => r
  | r, next :: rest => .alt r (choice next rest)

end Regex

structure Pattern where
  body : Regex
  deriving DecidableEq, Repr

def Pattern.source (p : Pattern) : List Char := '^' :: p.body.source

/-! ### Matching

Whether some front part of a text matches, found by trying the possibilities in turn: what is left of the text is handed
on to `k`. An iteration that takes no character is not repeated. -/

namespace Regex

def repeatedly (body : (List Char → Bool) → List Char → Bool) (isLazy : Bool) (k : List Char → Bool)
    (s : List Char) : Bool :=
  let again := fun (_ : Unit) =>
    body (fun t => if t.length < s.length then repeatedly body isLazy k t else false) s
  if isLazy then k s || again () else again () || k s
termination_by s.length

/-- Whether the expression matches a front part of `s` of which `k` accepts the rest. -/
def run (same : Char → Char → Bool) : Regex → (List Char → Bool) → List Char → Bool
  | .empty, k, s => k s
  | .char test, k, s =>
    match s with
    | [] => false
    | c :: rest => test.accepts same c && k rest
  | .seq first second, k, s => first.run same (second.run same k) s
  | .alt left right, k, s => left.run same k s || right.run same k s
  | .group inner, k, s => inner.run same k s
  | .repeated .zeroOrMore isLazy inner, k, s => repeatedly (inner.run same) isLazy k s
  | .repeated .oneOrMore isLazy inner, k, s => inner.run same (repeatedly (inner.run same) isLazy k) s
  | .repeated .optional isLazy inner, k, s =>
    if isLazy then k s || inner.run same k s else inner.run same k s || k s
  | .notAhead inner, k, s => !inner.run same (fun _ => true) s && k s
  | .finish, k, s => (s == [] || s == ['\n']) && k s

end Regex

def Pattern.test (p : Pattern) (same : Char → Char → Bool) (text : List Char) : Bool :=
  p.body.run same (fun _ => true) text

end CompilerAdapter
