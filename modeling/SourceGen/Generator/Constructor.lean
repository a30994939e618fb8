import SourceGen.Generator.Basic
import SourceGen.Generator.Phrase
import SourceGen.Snapshot.Member
/-! Bodies for constructors that resolve the members of their class from a service provider. -/

namespace SourceGen

/-- A field to set. One with an initializer keeps its value. -/
structure ConstructorField where
  isSkipped : Bool
  field : FieldSnapshot
  deriving DecidableEq

/-- A constructor to complete: its class, its parameters, which one is the service provider, and
what it sets and registers for. -/
structure ConstructorContext where
  hierarchy : Hierarchy
  accessibility : Accessibility
  callsBase : Bool
  initializesComponent : Bool
  parameters : List ParameterSnapshot
  provider : String
  fields : List ConstructorField
  properties : List PropertySnapshot
  messages : List String
  deriving DecidableEq

namespace ConstructorField

def accepts (field : FieldSymbol) : Bool :=
  !field.isImplicit && !field.isConstant && !field.isStatic && field.isReadOnly

def ofSymbol (field : FieldSymbol) : Except Failure ConstructorField :=
  (FieldSnapshot.ofSymbol field).map fun snapshot => ⟨field.hasInitializer, snapshot⟩

end ConstructorField

namespace ConstructorContext

def acceptsProperty (property : PropertySymbol) : Bool :=
  !property.isStatic && property.isPartialDefinition && property.setter.isNone

/-- The messages that a type receives by itself. -/
def messagesOf (type : TypeSymbol) : List String :=
  (type.interfaces.filter (·.fullMetadataName == Names.recipient)).filterMap fun recipient =>
    match recipient.arguments with
    | [message] => some message.annotatedName
    | _ => none

def onlyParameter? (parameters : List ParameterSnapshot) (accepts : ParameterSnapshot → Bool) :
    Option String :=
  match parameters.filter accepts with
  | [parameter] => some parameter.name
  | _ => none

/-- What there is to know about a marked constructor of a type; it needs exactly one service
provider. -/
def ofSymbols (type : TypeSymbol) (constructor : MethodSymbol) (marker : AttributeData) :
    Option ConstructorContext :=
  let parameters := constructor.parameters.map ParameterSnapshot.ofSymbol
  match AttributeSnapshot.ofData marker,
      onlyParameter? parameters (·.typeMetadataName == Names.serviceProvider),
      collectAll ConstructorField.ofSymbol (type.fields.filter ConstructorField.accepts),
      collectAll PropertySnapshot.ofSymbol (type.properties.filter acceptsProperty) with
  | .ok marker, some provider, .ok fields, .ok properties =>
    some
      { hierarchy := .ofSymbol type
        accessibility := constructor.accessibility
        callsBase := marker.sets "CallBaseConstructor" true
        initializesComponent := marker.sets "InitializeComponent" true
        parameters := parameters
        provider := provider
        fields := fields
        properties := properties
        messages := messagesOf type }
  | _, _, _, _ => none

def ofCandidate (candidate : AttributeCandidate) : Option ConstructorContext :=
  match candidate.symbol, candidate.containing, candidate.attributes with
  | .method constructor, some type, marker :: _ => ofSymbols type constructor marker
  | _, _, _ => none

variable (context : ConstructorContext)

def providerExpr : Expr :=
  .ident context.provider

/-- The value for a member of a type: a client, a parameter, or a service with or without a key. -/
def memberValue (type : String) (keyed : Option AttributeSnapshot) : Expr :=
  if type = Names.global Names.httpClient then
    match onlyParameter? context.parameters (·.typeMetadataName == Names.httpClient) with
    | some parameter => .ident parameter
    | none =>
      (Expr.member
        (.requiredService context.providerExpr
          (.parse (Names.global "System.Net.Http.IHttpClientFactory"))) "CreateClient").call
        [.nameOf context.hierarchy.name]
  else
    match onlyParameter? context.parameters (·.typeName == type) with
    | some parameter => .ident parameter
    | none =>
      match keyed.bind (·.arguments.head?) with
      | some key => .requiredKeyedService context.providerExpr (.parse type) key.toExpr
      | none => .requiredService context.providerExpr (.parse type)

def setMember (name type : String) (attributes : List AttributeSnapshot) : Stmt :=
  .expression <| .set (.member .this name) <|
    context.memberValue type (AttributeSnapshot.find? attributes Names.fromKeyedServicesAttribute)

def setField : ConstructorField → Stmt
  | ⟨true, field⟩ => .emptyWithComment ("Skipped field with initializer: " ++ field.name)
  | ⟨false, field⟩ => context.setMember field.name field.annotatedTypeName field.attributes

def register (message : String) : Stmt :=
  .expression <|
    (Expr.genericMember (.qualified Names.messengerExtensions) "Register" [.parse message]).call
      [.requiredService context.providerExpr (.parse Names.messenger), .this]

def callHook (name : String) : Stmt :=
  .expression ((Expr.ident name).call [context.providerExpr])

def statements : List Stmt :=
  [context.callHook "PreConstruct"] ++
    context.fields.map context.setField ++
    context.properties.map (fun property =>
      context.setMember property.name property.annotatedTypeName property.attributes) ++
    context.messages.map context.register ++
    (if context.initializesComponent then
      [.expression ((Expr.ident "InitializeComponent").call [])]
    else []) ++
    [context.callHook "PostConstruct"]

def constructorMember : Member :=
  .declare { modifiers := context.accessibility.modifiers ++ [.partialDeclaration] } <|
    .constructor context.hierarchy.name (context.parameters.map ParameterSnapshot.written)
      (if context.callsBase then some [.positional context.providerExpr] else none)
      (.block context.statements)

/-- The body of a property that the constructor sets. -/
def propertyMember (property : PropertySnapshot) : Member :=
  .declare { modifiers := property.accessibility.modifiers ++ [.partialDeclaration] }
    (.property property.writtenType property.name [.getting .backingField] none)

def hookMember (name : String) : Member :=
  .declare { modifiers := [.partialDeclaration] } <|
    .method .void name []
      [.simple (.parse (Names.global Names.serviceProvider)) "serviceProvider"] .absent

def toUnit : CompilationUnit :=
  context.hierarchy.toUnit
    ([context.constructorMember] ++ context.properties.map propertyMember ++
      [hookMember "PreConstruct", hookMember "PostConstruct"]) []

end ConstructorContext

def constructorStage : CompilationStage ConstructorContext where
  kind := .constructor
  polls context := !context.fields.isEmpty || !context.properties.isEmpty
  units context := [(context.hierarchy.hint ".g.cs", context.toUnit)]
  contexts compilation :=
    (compilation.withAttribute Names.generatedConstructorAttribute
      (· == .constructorDeclaration)).filterMap ConstructorContext.ofCandidate

end SourceGen
