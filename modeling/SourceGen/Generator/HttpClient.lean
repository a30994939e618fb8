import SourceGen.Generator.Service
/-! The registration of classes that get a client of their own. -/

namespace SourceGen

/-- A class that gets a client: how the client is configured, and the settings of its handler. -/
structure HttpClientEntry where
  implementation : TypeSnapshot
  service : Option String
  configuration : String
  handler : List (String × Constant)
  deriving DecidableEq

/-- All classes of a program that get a client. -/
structure HttpClientContext where
  clients : List HttpClientEntry
  deriving DecidableEq

namespace HttpClientEntry

/-- The name of the configuration that an argument stands for. -/
def configurationOf : Option ConstantValue → Option String
  | some (.enumeration type value) =>
    if type.fullMetadataName = Names.httpClientConfiguration then
      (type.enumMemberName? value).map (· ++ "Configuration")
    else none
  | _ => none

def ofCandidate (candidate : AttributeCandidate) : Option HttpClientEntry :=
  match candidate.symbol, candidate.attributes with
  | .type type, [data] =>
    match configurationOf data.arguments[0]?, AttributeSnapshot.ofData data,
        AttributeSnapshot.ofAll type.attributes with
    | some configuration, .ok marker, .ok attributes =>
      some
        { implementation := .ofSymbol type
          service := marker.arguments[1]?.bind Constant.typeName?
          configuration := configuration
          handler :=
            ((AttributeSnapshot.find? attributes Names.primaryHandlerAttribute).map
              (·.named)).getD [] }
    | _, _, _ => none
  | _, _ => none

/-- The function that sets up a handler. -/
def handlerSetup (handler : List (String × Constant)) : Expr :=
  let type := TypeExpr.parse (Names.global "System.Net.Http.SocketsHttpHandler")
  .lambdaBlock [] ["handler", "serviceProvider"] <|
    .declare type "typedHandler" (.cast type (.ident "handler")) ::
      handler.map fun (name, value) =>
        .expression (.set (.member (.ident "typedHandler") name) value.toExpr)

def registration (entry : HttpClientEntry) : Expr :=
  let types :=
    (entry.service.map TypeExpr.parse).toList ++ [.parse entry.implementation.fullName]
  let registered :=
    (Expr.genericMember (.ident "services") "AddHttpClient" types).call
      [.ident entry.configuration]
  if entry.handler.isEmpty then registered
  else
    (registered.member "ConfigurePrimaryHttpMessageHandler").call [handlerSetup entry.handler]

end HttpClientEntry

def httpClientStage : CompilationStage HttpClientContext where
  kind := .httpClient
  polls context := !context.clients.isEmpty
  units context :=
    [("ServiceCollectionExtension.HttpClients.g.cs",
      serviceExtension "System.Net.Http" "AddHttpClients"
        (context.clients.map fun entry => .expression entry.registration))]
  contexts compilation :=
    let clients :=
      (compilation.withAttribute Names.httpClientAttribute (· == .classDeclaration)).filterMap
        HttpClientEntry.ofCandidate
    [⟨sortByText (·.implementation.fullName) clients⟩]

end SourceGen
