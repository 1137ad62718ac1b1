import CompilerAdapter.Path.Name

/-! # References of a source file

The modules that a file imports and the files that its reference directives name. -/
namespace CompilerAdapter

structure ResolvedModule where
  fileName : Option String := none
  isExternal : Bool := false
  extension : Option String := none

abbrev Resolutions := List (String × Option ResolvedModule)

namespace Resolutions

def put : Resolutions → String → Option ResolvedModule → Resolutions
  | [], specifier, module => [(specifier, module)]
  | (s, m) :: rest, specifier, module =>
    if s = specifier then (s, module) :: rest else (s, m) :: put rest specifier module

def ofRecords (records : List (String × Option ResolvedModule)) : Resolutions :=
  records.foldl (fun resolutions record => resolutions.put record.1 record.2) []

end Resolutions

/-- The dependencies of a source file: the files of its modules, and its reference directives, those that name
declarations apart from the others. -/
structure References where
  files : List String
  modules : List String
  typings : List String
  deriving DecidableEq, Repr

namespace References

def moduleFile? (module : Option ResolvedModule) : Option String :=
  (module.bind ResolvedModule.fileName).filter (!·.isEmpty)

def of (resolutions : Resolutions) (referenced : List String) : References where
  files := referenced.filter (!Path.isDeclaration ·)
  modules := resolutions.filterMap (moduleFile? ·.2)
  typings := referenced.filter Path.isDeclaration

end References

end CompilerAdapter
