import SourceGen.Snapshot.Attribute
/-! Types and the types around them, without the symbols that they refer to. -/

namespace SourceGen

/-- A type by its names. -/
structure TypeSnapshot where
  name : String
  minimalName : String
  fullName : String
  bareName : String
  metadataName : String
  kind : TypeKind
  isRecord : Bool
  arguments : List TypeArgument
  deriving DecidableEq

namespace TypeSnapshot

/-- The snapshot of a type. Without arguments its parameters stand for them. -/
def ofSymbol (type : TypeSymbol) : TypeSnapshot where
  name := type.info.name
  minimalName := type.minimalName
  fullName := type.fullName
  bareName := type.bareName
  metadataName := type.fullMetadataName
  kind := type.info.kind
  isRecord := type.info.isRecord
  arguments :=
    if type.arguments.isEmpty then
      type.info.parameters.map fun name => .ofSymbol (.parameter name)
    else type.arguments.map .ofSymbol

/-- The keyword that a further part of the type is declared with. -/
def keyword (snapshot : TypeSnapshot) : TypeKeyword :=
  match snapshot.kind, snapshot.isRecord with
  | .structType, true => .recordStruct
  | .structType, false => .structType
  | .interfaceType, _ => .interfaceType
  | .classType, true => .record
  | _, _ => .classType

def part (snapshot : TypeSnapshot) (bases : List TypeExpr) (members : List Member) : Member :=
  .declare { modifiers := [.partialDeclaration] }
    (.type snapshot.keyword snapshot.name (snapshot.arguments.map (·.name)) bases members)

/-- The type as it is written, with or without its arguments. -/
def written (snapshot : TypeSnapshot) (withArguments : Bool) : TypeExpr :=
  if withArguments || snapshot.arguments.isEmpty then .parse snapshot.fullName
  else .applied snapshot.bareName []

end TypeSnapshot

/-- A type and the types around it, the innermost of these first. -/
structure Hierarchy where
  fileHint : String
  metadataName : String
  namespaceName : String
  target : TypeSnapshot
  outer : List TypeSnapshot
  deriving DecidableEq

namespace Hierarchy

def ofSymbol (type : TypeSymbol) : Hierarchy where
  fileHint := type.fullMetadataName
  metadataName := type.metadataName
  namespaceName := type.info.namespaceName
  target := .ofSymbol type
  outer := type.enclosing.map .ofSymbol

/-- The name of the innermost type. -/
def name (hierarchy : Hierarchy) : String :=
  hierarchy.target.name

def types (hierarchy : Hierarchy) : List TypeSnapshot :=
  hierarchy.target :: hierarchy.outer

/-- The name of a file about the type. -/
def hint (hierarchy : Hierarchy) (ending : String) : String :=
  hierarchy.fileHint ++ ending

/-- A file that adds members and base types to the innermost type. -/
def toUnit (hierarchy : Hierarchy) (members : List Member) (bases : List TypeExpr) :
    CompilationUnit where
  namespaceName := hierarchy.namespaceName
  members :=
    let innermost := hierarchy.target.part bases members
    let outermost := hierarchy.outer.foldl (fun member outer => outer.part [] [member]) innermost
    [outermost.prependTrivia .nullableEnable]

end Hierarchy

end SourceGen
