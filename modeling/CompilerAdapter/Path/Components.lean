import CompilerAdapter.Path.Name
import CompilerAdapter.Text.Position

/-! # Path components

A path is taken apart at its slashes, of either kind, and `.` and `..` are resolved. A rooted path keeps its root as a
first component of its own: the empty name for `/`, `c:` for a drive. -/
namespace CompilerAdapter.Path

/-- The root of a path with forward slashes, if it has one, and what follows it. A slash behind a drive is part of the
root. -/
def splitRoot : List Char → Option (List Char) × List Char
  | [] => (none, [])
  | '/' :: rest => (some [], rest)
  | letter :: rest =>
    match rest with
    | ':' :: '/' :: below => if letter.isAlpha then (some [letter, ':'], below) else (none, letter :: rest)
    | ':' :: below => if letter.isAlpha then (some [letter, ':'], below) else (none, letter :: rest)
    | _ => (none, letter :: rest)

/-- Goes on from a directory by one name: an empty name and `.` stay, `..` leaves the last directory that is not
itself `..`, and any other name enters. -/
def push (names : List (List Char)) (name : List Char) : List (List Char) :=
  if name = [] ∨ name = ['.'] then names
  else if name = ['.', '.'] ∧ names ≠ [] ∧ names.getLast? ≠ some ['.', '.'] then names.dropLast
  else names ++ [name]

def trimSlashes (path : List Char) : List Char :=
  (path.reverse.dropWhile (· == '/')).reverse

/-- A path with forward slashes, put under `base` if it has no root of its own and `base` is not empty. -/
def resolve (path base : List Char) : List Char :=
  let path := path.map forwardSlash
  if (splitRoot path).1 = none ∧ base ≠ [] then trimSlashes (base.map forwardSlash) ++ '/' :: path else path

def split (path : List Char) : List (List Char) :=
  let (root, below) := splitRoot path
  root.toList ++ (splitAtEach '/' below).foldl push []

def components (path base : String) : List String :=
  (split (resolve path.toList base.toList)).map String.ofList

end CompilerAdapter.Path
