/-! # File names

Forward slashes, recognised extensions, and the one name under which all artefacts of a module are filed. -/
namespace CompilerAdapter.Path

def forwardSlash (c : Char) : Char := if c = '\\' then '/' else c

def normalizeSlashes (path : String) : String := path.map forwardSlash

def hasExtension (path extension : String) : Bool :=
  decide (extension.length < path.length) && extension.toList.isSuffixOf path.toList

/-- A path without as many last characters as `extension` has. The empty extension takes the whole path away. -/
def dropExtension (path extension : String) : String :=
  if extension.isEmpty then "" else String.ofList (path.toList.take (path.length - extension.length))

/-- The extensions of source files. Those of declarations come before the shorter ones they end in. -/
def sourceExtensions : List String :=
  [".d.ts", ".d.mts", ".d.cts", ".mjs", ".mts", ".cjs", ".cts", ".ts", ".js", ".tsx", ".jsx", ".json"]

def removeExtension (extensions : List String) (path : String) : String :=
  match extensions.find? (hasExtension path) with
  | some extension => dropExtension path extension
  | none => path

def sourceMapExtension : String := ".map"

def declarationExtension : String := ".d.ts"

def isSourceMap (name : String) : Bool := hasExtension name sourceMapExtension

def isDeclaration (name : String) : Bool := hasExtension name declarationExtension

/-- The name of the module that a file belongs to: without the source map extension, with forward slashes, and without
the first of `extensions` that is left. -/
def normalize (extensions : List String) (path : String) : String :=
  let path := if isSourceMap path then dropExtension path sourceMapExtension else path
  removeExtension extensions (normalizeSlashes path)

end CompilerAdapter.Path
