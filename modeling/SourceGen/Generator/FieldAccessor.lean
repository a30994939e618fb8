import SourceGen.Generator.Basic
import SourceGen.Generator.Phrase
import SourceGen.Snapshot.Member
/-! Accessors for the fields that store the values of properties. -/

namespace SourceGen

/-- A property with the field that stores its value. -/
structure FieldAccessorEntry where
  property : PropertySnapshot
  field : FieldSnapshot
  isReadOnly : Bool
  deriving DecidableEq

/-- A type with its properties whose fields are made accessible. -/
structure FieldAccessorContext where
  hierarchy : Hierarchy
  owner : String
  properties : List FieldAccessorEntry
  deriving DecidableEq

namespace FieldAccessorEntry

/-- A property of a type with its field. A property that returns a reference or has no accessor has
no field. -/
def ofSymbols (owner : TypeSymbol) (property : PropertySymbol) : Option FieldAccessorEntry :=
  if property.returnsByRef || (property.getter.isNone && property.setter.isNone) then none
  else
    match owner.fields.find? (·.backs == some property.name) with
    | none => none
    | some field =>
      match PropertySnapshot.ofSymbol property, FieldSnapshot.ofSymbol field with
      | .ok exposed, .ok backing =>
        some ⟨exposed, backing, property.setter.all (·.isInitOnly)⟩
      | _, _ => none

def ofCandidate (candidate : AttributeCandidate) :
    Option ((Hierarchy × String) × FieldAccessorEntry) :=
  match candidate.symbol, candidate.containing with
  | .property property, some owner =>
    (ofSymbols owner property).map fun entry => ((.ofSymbol owner, owner.fullName), entry)
  | _, _ => none

/-- The method that gives access to the field of an object of a type. -/
def toMember (owner : String) (entry : FieldAccessorEntry) : Member :=
  let reference := if entry.isReadOnly then "ref readonly " else "ref "
  .declare
    { attributes :=
        [.applied (Names.global "System.Runtime.CompilerServices.UnsafeAccessor")
          [.positional
              (.member
                (.qualified (Names.global "System.Runtime.CompilerServices.UnsafeAccessorKind"))
                "Field"),
            .named "Name" (.string entry.field.name)]]
      modifiers := [.privateAccess, .static, .foreign] } <|
    .method (.parse (reference ++ entry.property.annotatedTypeName))
      ("FieldRefOf" ++ entry.property.name) [] [.simple (.parse owner) "self"] .absent

end FieldAccessorEntry

namespace FieldAccessorContext

/-- A type with its properties in the order of their names. -/
def ofGroup (group : (Hierarchy × String) × List FieldAccessorEntry) : FieldAccessorContext :=
  ⟨group.1.1, group.1.2, sortByText (·.property.name) group.2⟩

def toUnit (context : FieldAccessorContext) : CompilationUnit :=
  context.hierarchy.toUnit
    (context.properties.map (FieldAccessorEntry.toMember context.owner)) []

end FieldAccessorContext

def fieldAccessorStage : CompilationStage FieldAccessorContext where
  kind := .fieldAccessor
  polls context := !context.properties.isEmpty
  units context := [(context.hierarchy.hint ".FieldAccessor.g.cs", context.toUnit)]
  contexts compilation :=
    let entries :=
      (compilation.withAttribute Names.fieldAccessorAttribute
        (· == .propertyDeclaration)).filterMap FieldAccessorEntry.ofCandidate
    sortByText (·.hierarchy.fileHint) ((groupByKey entries).map FieldAccessorContext.ofGroup)

end SourceGen
