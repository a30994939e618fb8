import SourceGen.Project.Config
/-! Names that resource files get from their paths. -/

namespace SourceGen.ResourcePath

/-- Adds a part to a path, whose last part comes first. Two dots take the part before them back. -/
def fold (parts : List (List Char)) (part : List Char) : List (List Char) :=
  if part = [] ∨ part = ['.'] then parts
  else
    match parts with
    | last :: rest => if part = ['.', '.'] ∧ last ≠ ['.', '.'] then rest else part :: parts
    | [] => [part]

/-- A path with slashes between its parts, and without parts that lead nowhere. -/
def normalize (path : List Char) : List Char :=
  let slashed := path.map fun c => if c = '\\' then '/' else c
  let parts := ((Text.splitChars '/' slashed).foldl fold []).reverse
  let joined := ['/'].intercalate parts
  if slashed.head? = some '/' then '/' :: joined else joined

/-- A path with a slash at its end. -/
def asDirectory (path : List Char) : List Char :=
  if path.getLast? = some '/' then path else path ++ ['/']

/-- The path of the directory that holds a file. -/
def parent (path : List Char) : List Char :=
  (path.reverse.dropWhile (· ≠ '/')).tail.reverse

/-- What is left of the path behind a directory. -/
def relative? (directory path : List Char) : Option (List Char) :=
  if directory.isPrefixOf path then some (path.drop directory.length) else none

/-- A path with dots for slashes. -/
def dotted (path : List Char) : List Char :=
  path.map fun c => if c = '/' then '.' else c

/-- The name of a resource: its path within the project, behind the namespace of the project. -/
def resourceName? (rootNamespace projectDirectory resourcePath : String) : Option String :=
  let directory := asDirectory (normalize projectDirectory.toList)
  let path := normalize resourcePath.toList
  if directory = path then some rootNamespace
  else
    (relative? directory path).map fun rest =>
      rootNamespace ++ "." ++ String.ofList (dotted rest)

/-- The namespace of a resource: the directory of its path within the project, behind the namespace
of the project. -/
def namespace? (rootNamespace projectDirectory resourcePath : String) : Option String :=
  let directory := asDirectory (normalize projectDirectory.toList)
  let own := asDirectory (parent (normalize resourcePath.toList))
  if directory = own then some rootNamespace
  else
    (relative? directory own).map fun rest =>
      String.ofList (Text.dropWhileEnd (· = '.') (rootNamespace.toList ++ '.' :: dotted rest))

end SourceGen.ResourcePath
