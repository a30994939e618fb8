import SourceGen.Generator.Basic
import SourceGen.Generator.Phrase
import SourceGen.Snapshot.Type
/-! The registration of services. -/

namespace SourceGen

/-- How long a service lives. -/
inductive ServiceLifetime where
  | singleton
  | perScope
  | transient
  deriving DecidableEq, Repr

namespace ServiceLifetime

def ofValue? (value : Int64) : Option ServiceLifetime :=
  if value = 0 then some singleton
  else if value = 1 then some perScope
  else if value = 2 then some transient
  else none

def name : ServiceLifetime → String
  | singleton => "Singleton"
  | perScope => "Scoped"
  | transient => "Transient"

/-- The place of a lifetime in the order of registration. -/
def rank (lifetime : ServiceLifetime) : Nat :=
  lifetime.ctorIdx

end ServiceLifetime

/-- The type that a service is asked for by. -/
structure ServiceType where
  name : String
  isUnbound : Bool
  deriving DecidableEq

structure ServiceEntry where
  lifetime : ServiceLifetime
  implementation : TypeSnapshot
  service : Option ServiceType
  key : Option Constant
  deriving DecidableEq

structure ServiceContext where
  entries : List ServiceEntry
  deriving DecidableEq

/-- A file with one method that extends the collection of services, for which a namespace is
opened. -/
def serviceExtension (opened : String) (method : String) (statements : List Stmt) :
    CompilationUnit where
  usings := [opened]
  trivia := .nullableEnable
  namespaceName := "Snap.Hutao.Core.DependencyInjection"
  members :=
    let collection := TypeExpr.parse Names.serviceCollection
    [.classOf [.internalAccess, .static, .partialDeclaration] "ServiceCollectionExtension"
      [.method [.publicAccess, .static, .partialDeclaration] collection method
        [.extended collection "services"] (statements ++ [.result (.ident "services")])]]

namespace ServiceEntry

/-- The type that the second argument of a marker asks for. -/
def serviceOf : Option Constant → Option ServiceType
  | some (.type name isUnbound) => some ⟨name, isUnbound⟩
  | _ => none

def ofCandidate (candidate : AttributeCandidate) : Option ServiceEntry :=
  match candidate.symbol, candidate.attributes with
  | .type type, [data] =>
    match AttributeSnapshot.ofData data with
    | .error _ => none
    | .ok marker =>
      ((marker.arguments[0]?.bind Constant.enumValue?).bind ServiceLifetime.ofValue?).map
        fun lifetime =>
          { lifetime
            implementation := .ofSymbol type
            service := serviceOf marker.arguments[1]?
            key := marker.namedValue? "Key" }
  | _, _ => none

/-- Whether a service is registered no later than another: by lifetime, then by name. -/
def precedes (a b : ServiceEntry) : Bool :=
  decide (a.lifetime.rank < b.lifetime.rank) ||
    (decide (a.lifetime = b.lifetime) &&
      decide (a.implementation.fullName ≤ b.implementation.fullName))

def registration (entry : ServiceEntry) : Expr :=
  let method :=
    (if entry.key.isSome then "AddKeyed" else "Add") ++ entry.lifetime.name
  let services := Expr.ident "services"
  let key := (entry.key.map Constant.toExpr).toList
  match entry.service with
  | some ⟨name, true⟩ =>
    (services.member method).call
      ([.typeOf (.parse name)] ++ key ++ [.typeOf (entry.implementation.written false)])
  | service =>
    (services.genericMember method
      ((service.map fun type => TypeExpr.parse type.name).toList ++
        [entry.implementation.written true])).call key

end ServiceEntry

def serviceStage : CompilationStage ServiceContext where
  kind := .service
  polls context := !context.entries.isEmpty
  units context :=
    [("ServiceCollectionExtension.g.cs",
      serviceExtension "Microsoft.Extensions.DependencyInjection" "AddServices"
        (context.entries.map fun entry => .expression entry.registration))]
  contexts compilation :=
    let entries :=
      (compilation.withAttribute Names.serviceAttribute (· == .classDeclaration)).filterMap
        ServiceEntry.ofCandidate
    [⟨entries.mergeSort ServiceEntry.precedes⟩]

end SourceGen
