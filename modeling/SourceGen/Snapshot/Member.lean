import SourceGen.Snapshot.Type
/-! Fields, properties, parameters and methods without the symbols that they refer to. -/

namespace SourceGen

structure FieldSnapshot where
  name : String
  typeName : String
  annotatedTypeName : String
  attributes : List AttributeSnapshot
  deriving DecidableEq

/-- The snapshot of a field. It fails if an argument of an attribute failed to bind. -/
def FieldSnapshot.ofSymbol (field : FieldSymbol) : Except Failure FieldSnapshot :=
  (AttributeSnapshot.ofAll field.attributes).map fun attributes =>
    ⟨field.name, field.type.fullName, field.type.annotatedName, attributes⟩

structure IndexerParameter where
  typeName : String
  isValueType : Bool
  isReferenceType : Bool
  deriving DecidableEq

def IndexerParameter.ofSymbol (parameter : ParameterSymbol) : IndexerParameter :=
  ⟨parameter.type.annotatedName, parameter.type.isValueType, parameter.type.isReferenceType⟩

/-- A property, or an indexer if it has a parameter. -/
structure PropertySnapshot where
  name : String
  typeName : String
  annotatedTypeName : String
  isValueType : Bool
  isReferenceType : Bool
  attributes : List AttributeSnapshot
  accessibility : Accessibility
  getter : Option Accessibility
  setter : Option Accessibility
  indexer : Option IndexerParameter
  isStatic : Bool
  deriving DecidableEq

namespace PropertySnapshot

/-- The snapshot of a property. It fails if an argument of an attribute failed to bind. -/
def ofSymbol (property : PropertySymbol) : Except Failure PropertySnapshot :=
  (AttributeSnapshot.ofAll property.attributes).map fun attributes =>
    { name := property.name
      typeName := property.type.fullName
      annotatedTypeName := property.type.annotatedName
      isValueType := property.type.isValueType
      isReferenceType := property.type.isReferenceType
      attributes := attributes
      accessibility := property.accessibility
      getter := property.getter.map (·.accessibility)
      setter := property.setter.map (·.accessibility)
      indexer := property.parameters.head?.map IndexerParameter.ofSymbol
      isStatic := property.isStatic }

def writtenType (property : PropertySnapshot) : TypeExpr :=
  .parse property.annotatedTypeName

end PropertySnapshot

structure ParameterSnapshot where
  name : String
  typeName : String
  typeMetadataName : String
  annotatedTypeName : String
  deriving DecidableEq

namespace ParameterSnapshot

def ofSymbol (parameter : ParameterSymbol) : ParameterSnapshot :=
  ⟨parameter.name, parameter.type.fullName, parameter.type.fullMetadataName,
    parameter.type.annotatedName⟩

def written (parameter : ParameterSnapshot) : Parameter :=
  { type := .parse parameter.annotatedTypeName, name := parameter.name }

end ParameterSnapshot

structure MethodSnapshot where
  name : String
  returnTypeName : String
  returnTypeMetadataName : String
  parameters : List ParameterSnapshot
  isStatic : Bool
  deriving DecidableEq

def MethodSnapshot.ofSymbol (method : MethodSymbol) : MethodSnapshot where
  name := method.name
  returnTypeName := method.returnType.annotatedName
  returnTypeMetadataName := method.returnType.fullMetadataName
  parameters := method.parameters.map ParameterSnapshot.ofSymbol
  isStatic := method.isStatic

end SourceGen
