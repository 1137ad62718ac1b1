import CompilerAdapter.Path.Components
import CompilerAdapter.Regex.Basic
import CompilerAdapter.Regex.Reader
import CompilerAdapter.Text.LetterCase

/-! # Wildcards

A wildcard names files or directories by its path components: `*` stands for part of a name, `?` for one character and
`**` for any directories. Every spec becomes a regular expression, and a list of specs the choice between theirs. -/
namespace CompilerAdapter.Wildcard

inductive Usage where
  | files
  | directories
  | exclude
  deriving DecidableEq, Repr

def slash : Regex := .char (.only '/')

def nameChar : Regex := .char (.noneOf ['/'])

def namePart : Regex := .repeated .zeroOrMore false nameChar

/-- What `*` stands for: part of a name, and among files no `.min.js` at its end. -/
def asterisk : Usage → Regex
  | .files =>
    .repeated .zeroOrMore false (.group (.alt (.char (.noneOf ['.', '/']))
      (.repeated .optional false (.group (.seq (.char (.only '.'))
        (.notAhead (.seq (.literal "min.js".toList) .finish)))))))
  | _ => namePart

def visibleDirectory : Regex := .seq (.char (.noneOf ['/', '.'])) namePart

def innerDirectories : Usage → Regex
  | .exclude => .repeated .optional false (.group (.seq slash (.repeated .oneOrMore true (.char .any))))
  | _ => .repeated .zeroOrMore true (.group (.seq slash visibleDirectory))

def leadingDirectories : Usage → Regex
  | .exclude => .repeated .optional false (.group (.seq (.repeated .oneOrMore true (.char .any)) slash))
  | _ => .repeated .zeroOrMore true (.group (.sequence [.char (.noneOf ['/', '.']), namePart, slash]))

def everything : Regex := .repeated .zeroOrMore false (.char .any)

def characters (usage : Usage) : List Char → Regex
  | [] => .empty
  | c :: rest =>
    .seq (if c = '*' then asterisk usage else if c = '?' then nameChar else .char (.only c)) (characters usage rest)

/-- A component that wildcards start does not take a hidden name. -/
def visibleCharacters (usage : Usage) : List Char → Regex
  | '*' :: rest =>
    .seq (.repeated .optional false (.group (.seq (.char (.noneOf ['.', '/'])) (asterisk usage)))) (characters usage rest)
  | '?' :: rest => .seq (.char (.noneOf ['.', '/'])) (characters usage rest)
  | name => characters usage name

def packageDirectory : Regex :=
  .choice (.literal "node_modules".toList) [.literal "bower_components".toList, .literal "jspm_packages".toList]

/-- No package directory stands here: only a spec that writes such a name selects it. -/
def noPackageDirectory : Regex := .notAhead (.seq (.group packageDirectory) (.group (.alt slash .finish)))

def component (usage : Usage) (name : List Char) : Regex :=
  match usage with
  | .exclude => characters usage name
  | _ =>
    if name.any isReserved then .seq noPackageDirectory (visibleCharacters usage name)
    else visibleCharacters usage name

/-- The expression for the components that are left, none if `**` comes up twice. `written` tells whether a component
stands before them and `recursive` whether a `**` does. The directories on the way to a match are matched as well. -/
def namesRegex? (usage : Usage) : Bool → Bool → List (List Char) → Option Regex
  | _, _, [] => some .empty
  | written, recursive, name :: rest =>
    if name = ['*', '*'] then
      if recursive then none
      else
        let directories :=
          if written then innerDirectories usage
          else if rest.isEmpty then everything
          else leadingDirectories usage
        (namesRegex? usage written true rest).map (.seq directories)
    else
      let piece := if written then .seq slash (component usage name) else component usage name
      (namesRegex? usage true recursive rest).map fun tail =>
        if usage = .directories then .repeated .optional false (.group (.seq piece tail)) else .seq piece tail

/-- The expression for one spec. Only an excluding spec may end in `**`. -/
def specRegex? (usage : Usage) (base spec : String) : Option Regex :=
  let names := Path.split (Path.resolve spec.toList base.toList)
  if names.isEmpty ∨ (usage ≠ .exclude ∧ names.getLast? = some ['*', '*']) then none
  else namesRegex? usage false false names

/-- The end of a match. What lies below an excluded path is excluded too. -/
def terminator : Usage → Regex
  | .exclude => .group (.alt .finish slash)
  | _ => .finish

def pattern? (usage : Usage) (base : String) (specs : List String) : Option Pattern :=
  match (specs.filter (!·.isEmpty)).filterMap (specRegex? usage base) with
  | [] => none
  | first :: rest =>
    some ⟨.seq (.group (.choice (.group first) (rest.map .group))) (terminator usage)⟩

/-! ### Excluded paths -/

def comparison (caseSensitive : Bool) : Char → Char → Bool :=
  if caseSensitive then (· == ·) else sameButCase

structure Exclusion where
  pattern : Pattern
  caseSensitive : Bool

def exclusion? (caseSensitive : Bool) (specs : List String) : Option Exclusion :=
  (pattern? .exclude "" specs).map (⟨·, caseSensitive⟩)

/-- The excluded paths as the text of their pattern says them. -/
def readExclusion (caseSensitive : Bool) (specs : List String) : Except Regex.Fault (Option Exclusion) :=
  match pattern? .exclude "" specs with
  | none => .ok none
  | some p => do return some ⟨← Pattern.read p.source, caseSensitive⟩

def Exclusion.covers (e : Exclusion) (path : String) : Bool :=
  e.pattern.test (comparison e.caseSensitive) path.toList

end CompilerAdapter.Wildcard
