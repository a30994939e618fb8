import SourceGen.Generator.Basic
import SourceGen.Generator.Phrase
import SourceGen.Snapshot.Member
/-! The method that reads a property by its name. -/

namespace SourceGen

/-- A type with its public properties. -/
structure PropertyValuesContext where
  hierarchy : Hierarchy
  properties : List PropertySnapshot
  deriving DecidableEq

namespace PropertyValuesContext

def ofSymbol (type : TypeSymbol) : Except Failure PropertyValuesContext :=
  (collectAll PropertySnapshot.ofSymbol
    (type.properties.filter (·.accessibility == .publicAccess))).map fun properties =>
    ⟨.ofSymbol type, properties⟩

/-- What there is to know about the type that a node declares, if it lists the interface itself. -/
def ofCandidate (candidate : SyntaxCandidate) : Option PropertyValuesContext :=
  (candidate.symbol.bind Symbol.type?).bind fun type =>
    if type.interfaces.any (·.fullMetadataName == Names.propertyValuesProvider) then
      (ofSymbol type).toOption
    else none

def arm (property : PropertySnapshot) : Arm :=
  .case (.constant (.nameOf property.name)) (.ident property.name)

def arms (context : PropertyValuesContext) : List Arm :=
  context.properties.map arm ++ [.case .discard .default]

def toUnit (context : PropertyValuesContext) : CompilationUnit :=
  context.hierarchy.toUnit
    [.method [.publicAccess] TypeExpr.object.nullable "GetPropertyValue"
      [.simple .string "propertyName"]
      [.result (.switch (.ident "propertyName") context.arms)]]
    []

end PropertyValuesContext

/-- The generator of reading by name; a type declared in several files is one unit of work. -/
def propertyValuesStage : CompilationStage PropertyValuesContext where
  kind := .propertyValues
  polls context := !context.properties.isEmpty
  units context := [(context.hierarchy.hint ".PropertyValues.g.cs", context.toUnit)]
  contexts compilation :=
    distinct
      ((compilation.withShape Site.hasBaseList).filterMap PropertyValuesContext.ofCandidate)

end SourceGen
