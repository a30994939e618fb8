import SourceGen.Generator.Basic
import SourceGen.Generator.Phrase
import SourceGen.Snapshot.Type
/-! Dependency properties: a registered field for each, and how it is read and written. -/

namespace SourceGen

/-- A type and the markers of its dependency properties. -/
structure DependencyPropertyContext where
  hierarchy : Hierarchy
  markers : List AttributeSnapshot
  deriving DecidableEq

/-- What a marker with a name and a type says about a dependency property. -/
structure DependencyProperty where
  owner : String
  name : String
  type : TypeExpr
  marker : AttributeSnapshot

namespace DependencyProperty

/-- The dependency property of a marker; it needs a name and a type. -/
def ofMarker? (owner : String) (marker : AttributeSnapshot) : Option DependencyProperty :=
  match marker.string? 0, marker.typeArguments.head? with
  | some name, some argument => some ⟨owner, name, .parse argument.fullName, marker⟩
  | _, _ => none

variable (property : DependencyProperty)

/-- Whether the property is attached to objects of other types. -/
def isAttached : Bool :=
  property.marker.sets "IsAttached" true

/-- The type of the values; they may be null unless the marker says otherwise. -/
def valueType : TypeExpr :=
  if property.marker.sets "NotNull" true then property.type else property.type.nullable

def fieldName : String :=
  property.name ++ "Property"

def fieldExpr : Expr :=
  .ident property.fieldName

/-- The first value. A callback makes it anew for every object, and so wins over a given value. -/
def defaultValue : Expr :=
  match property.marker.namedString? "CreateDefaultValueCallbackName",
      property.marker.namedValue? "DefaultValue" with
  | some callback, _ => (Expr.ident callback).call []
  | none, some value => value.toExpr
  | none, none => .defaultOf .object

def metadata : Expr :=
  (Expr.member (.qualified Names.propertyMetadata) "Create").call <|
    property.defaultValue ::
      ((property.marker.namedString? "PropertyChangedCallbackName").map Expr.ident).toList

def registration : Expr :=
  (Expr.member (.qualified Names.dependencyProperty)
    (if property.isAttached then "RegisterAttached" else "Register")).call
    [.string property.name, .typeOf property.type, .typeOf (.parse property.owner),
      property.metadata]

def fieldMember : Member :=
  .declare { modifiers := [.privateAccess, .static, .readOnly] } <|
    .field (.parse Names.dependencyProperty) property.fieldName (some property.registration)

/-- The property of an object itself. -/
def wrapper : Member :=
  .declare { modifiers := [.publicAccess] } <|
    .property property.valueType property.name
      [.getting (.cast property.type ((Expr.ident "GetValue").call [property.fieldExpr])),
        .setting ((Expr.ident "SetValue").call [property.fieldExpr, .ident "value"])]
      none

/-- The type of the objects that an attached property is attached to. -/
def targetType : TypeExpr :=
  match (property.marker.namedValue? "TargetType").bind Constant.typeName? with
  | some name => .parse name
  | none => .parse Names.dependencyObject

/-- The object that an attached property is attached to. -/
def target : Parameter :=
  .simple property.targetType "obj"

/-- The check that there is an object. -/
def guard : Stmt :=
  .expression (.throwIfNull (.ident "obj"))

def reader : Member :=
  .method [.publicAccess, .static] property.valueType ("Get" ++ property.name) [property.target]
    [guard,
      .result (.cast property.valueType
        ((Expr.member (.ident "obj") "GetValue").call [property.fieldExpr]))]

def writer : Member :=
  .method [.publicAccess, .static] .void ("Set" ++ property.name)
    [property.target, .simple property.valueType "value"]
    [guard,
      .expression
        ((Expr.member (.ident "obj") "SetValue").call [property.fieldExpr, .ident "value"])]

def toMembers : List Member :=
  property.fieldMember ::
    if property.isAttached then [property.reader, property.writer] else [property.wrapper]

end DependencyProperty

namespace DependencyPropertyContext

def ofCandidate (candidate : AttributeCandidate) : Option DependencyPropertyContext :=
  match candidate.symbol, AttributeSnapshot.ofAll candidate.attributes with
  | .type type, .ok markers => some ⟨.ofSymbol type, markers⟩
  | _, _ => none

def properties (context : DependencyPropertyContext) : List DependencyProperty :=
  context.markers.filterMap (DependencyProperty.ofMarker? context.hierarchy.name)

def toUnit (context : DependencyPropertyContext) : CompilationUnit :=
  context.hierarchy.toUnit (context.properties.flatMap DependencyProperty.toMembers) []

end DependencyPropertyContext

def dependencyPropertyStage : CompilationStage DependencyPropertyContext where
  kind := .dependencyProperty
  polls context := !context.markers.isEmpty
  units context := [(context.hierarchy.hint ".DependencyProperty.g.cs", context.toUnit)]
  contexts compilation :=
    (compilation.withAttribute Names.dependencyPropertyAttribute
      Kind.isTypeDeclaration).filterMap DependencyPropertyContext.ofCandidate

end SourceGen
