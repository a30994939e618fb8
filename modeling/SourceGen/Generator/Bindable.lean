import SourceGen.Generator.Command
/-! Lookups of properties by name and of indexers by the type of their index. -/

namespace SourceGen

/-- A class with the public properties and the commands of itself and its base types. -/
structure BindableContext where
  hierarchy : Hierarchy
  owner : String
  properties : List PropertySnapshot
  commands : List CommandMethod
  deriving DecidableEq

/-- Whether something that may be missing is there and public. -/
def isPublic (accessibility : Option Accessibility) : Bool :=
  accessibility == some .publicAccess

/-- A value reinterpreted as another type. -/
def unsafelyAs (type : TypeExpr) (value : Expr) (isValueType : Bool) : Expr :=
  (Expr.genericMember (.qualified (Names.global "System.Runtime.CompilerServices.Unsafe"))
    (if isValueType then "Unbox" else "As") [type]).call [value]

/-- A description of how a property is read and written. -/
structure Binding where
  canRead : Bool
  canWrite : Bool
  name : Expr
  type : TypeExpr
  getValue : Expr := .default
  setValue : Expr := .default
  getIndexedValue : Expr := .default
  setIndexedValue : Expr := .default

/-- The expression that makes a description. -/
def Binding.toExpr (binding : Binding) : Expr :=
  .newImplicit <|
    [.bool binding.canRead, .bool binding.canWrite, binding.name, .typeOf binding.type,
      binding.getValue, binding.setValue, binding.getIndexedValue,
      binding.setIndexedValue].map .positional

namespace BindableContext

/-- The public properties of a type and its base types. -/
def propertiesOf (type : TypeSymbol) : List PropertySymbol :=
  (type :: type.bases).flatMap fun current =>
    current.properties.filter (·.accessibility == .publicAccess)

/-- The methods of a type and its base types that become commands. -/
def commandsOf (type : TypeSymbol) : List MethodSymbol :=
  (type :: type.bases).flatMap fun current =>
    current.methods.filter fun method =>
      method.attributes.any (·.type.fullMetadataName == Names.commandAttribute)

def ofSymbol (type : TypeSymbol) : Except Failure BindableContext :=
  match collectAll PropertySnapshot.ofSymbol (propertiesOf type),
      collectAll (fun method => CommandMethod.ofSymbol method method.attributes)
        (commandsOf type) with
  | .ok properties, .ok commands => .ok ⟨.ofSymbol type, type.fullName, properties, commands⟩
  | .error failure, _ => .error failure
  | _, .error failure => .error failure

def ofCandidate (candidate : AttributeCandidate) : Option BindableContext :=
  candidate.symbol.type?.bind fun type => (ofSymbol type).toOption

variable (context : BindableContext)

def ownerType : TypeExpr :=
  .parse context.owner

/-- The object at hand as an object of the class. -/
def instanceExpr : Expr :=
  unsafelyAs context.ownerType (.ident "instance") false

/-- What a member is taken from: the class itself if it is static. -/
def receiver (isStatic : Bool) (object : Expr) : Expr :=
  if isStatic then .type context.ownerType else object

/-- The statements in front of every write: nothing is written once the view is unloaded. -/
def writePrelude : List Stmt :=
  [.declare context.ownerType "typedInstance" context.instanceExpr,
    .ifThen (.member (.member (.ident "typedInstance") "IsViewUnloaded") "Value") [.leave]]

def writeLambda (parameters : List String) (place : Expr) (property : PropertySnapshot) : Expr :=
  .lambdaBlock [.static] parameters <| context.writePrelude ++
    [.expression
      (.set place
        (unsafelyAs (.parse property.typeName) (.ident "value") property.isValueType))]

def propertyArm (property : PropertySnapshot) : Arm :=
  let canRead := isPublic property.getter
  let canWrite := isPublic property.setter
  let binding : Binding :=
    { canRead, canWrite
      name := .nameOf property.name
      type := .parse property.typeName
      getValue :=
        if canRead then
          .lambda [.static] ["instance"]
            (.member (context.receiver property.isStatic context.instanceExpr) property.name)
        else .default
      setValue :=
        if canWrite then
          context.writeLambda ["instance", "value"]
            (.member (context.receiver property.isStatic (.ident "typedInstance")) property.name)
            property
        else .default }
  .case (.constant (.nameOf property.name)) binding.toExpr

def commandArm (command : CommandMethod) (name : String) : Arm :=
  let binding : Binding :=
    { canRead := true
      canWrite := false
      name := .nameOf name
      type := command.commandType
      getValue :=
        .lambda [.static] ["instance"]
          (.member (context.receiver command.method.isStatic context.instanceExpr) name) }
  .case (.constant (.nameOf name)) binding.toExpr

/-- The cases of the lookup by name. -/
def arms : List Arm :=
  (context.properties.filter (·.indexer.isNone)).map context.propertyArm ++
    (context.commands.flatMap fun command =>
      command.commandNames.map (context.commandArm command)) ++
    [.case .discard .default]

def indexerStatement (property : PropertySnapshot) (index : IndexerParameter) : Stmt :=
  let canRead := isPublic property.getter
  let canWrite := isPublic property.setter
  let indexType := TypeExpr.parse index.typeName
  let indexed (object : Expr) : Expr :=
    .element object [.positional (unsafelyAs indexType (.ident "index") index.isValueType)]
  let binding : Binding :=
    { canRead, canWrite
      name := .string "Item"
      type := .parse property.typeName
      getIndexedValue :=
        if canRead then
          .lambda [.static] ["instance", "index"] (indexed context.instanceExpr)
        else .null
      setIndexedValue :=
        if canWrite then
          context.writeLambda ["instance", "value", "index"] (indexed (.ident "typedInstance"))
            property
        else .null }
  .ifThen (.binary (.ident "indexParameterType") .equalEqual (.typeOf indexType))
    [.result binding.toExpr]

def indexerStatements : List Stmt :=
  context.properties.filterMap (fun property =>
      property.indexer.map (context.indexerStatement property)) ++
    [.result .default]

/-- A lookup: what it takes, and its statements. -/
def lookup (parameter : Parameter) (statements : List Stmt) : Member :=
  .method [.publicAccess] (TypeExpr.parse Names.bindableProperty).nullable "GetProperty"
    [parameter] statements

def toUnit : CompilationUnit :=
  context.hierarchy.toUnit
    [lookup (.simple .string "name") [.result (.switch (.ident "name") context.arms)],
      lookup (.simple (.parse (Names.global "System.Type")) "indexParameterType")
        context.indexerStatements]
    [.parse Names.bindableImplementation]

end BindableContext

def bindableStage : CompilationStage BindableContext where
  kind := .bindable
  polls context := !context.properties.isEmpty || !context.commands.isEmpty
  units context := [(context.hierarchy.hint ".Bindable.g.cs", context.toUnit)]
  contexts compilation :=
    (compilation.withAttribute Names.bindableAttribute (· == .classDeclaration)).filterMap
      BindableContext.ofCandidate

end SourceGen
