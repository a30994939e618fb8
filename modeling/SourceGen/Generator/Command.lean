import SourceGen.Generator.Basic
import SourceGen.Generator.Phrase
import SourceGen.Snapshot.Member
/-! Commands that are made from methods when they are first asked for. -/

namespace SourceGen

/-- A method that becomes one command for each of its markers. -/
structure CommandMethod where
  isAsync : Bool
  attributes : List AttributeSnapshot
  method : MethodSnapshot
  deriving DecidableEq

structure CommandContext where
  hierarchy : Hierarchy
  methods : List CommandMethod
  deriving DecidableEq

namespace CommandMethod

def ofSymbol (method : MethodSymbol) (attributes : List AttributeData) :
    Except Failure CommandMethod :=
  (AttributeSnapshot.ofAll attributes).map fun attributes =>
    { isAsync := method.returnType.isOrInherits Names.task
      attributes := attributes
      method := .ofSymbol method }

def ofCandidate (candidate : AttributeCandidate) : Option (Hierarchy × CommandMethod) :=
  match candidate.symbol, candidate.containing with
  | .method method, some type =>
    (ofSymbol method candidate.attributes).toOption.map fun command => (.ofSymbol type, command)
  | _, _ => none

/-- The type of the command: whether it is asynchronous, and what it takes. -/
def commandType (command : CommandMethod) : TypeExpr :=
  let name := if command.isAsync then Names.asyncRelayCommand else Names.relayCommand
  match command.method.parameters.head? with
  | some parameter => .applied name [.parse parameter.typeName]
  | none => .parse name

def markers (command : CommandMethod) : List AttributeSnapshot :=
  command.attributes.filter (·.metadataName == Names.commandAttribute)

def commandNames (command : CommandMethod) : List String :=
  command.markers.filterMap (·.string? 0)

/-- The arguments that a command is made from. -/
def creation (command : CommandMethod) (marker : AttributeSnapshot) : List Argument :=
  [.positional (.ident command.method.name)] ++
    ((marker.string? 1).map fun name => Argument.positional (.ident name)).toList ++
    if marker.sets "AllowConcurrentExecutions" true then
      [.positional
        (.member (.qualified Names.asyncRelayCommandOptions) "AllowConcurrentExecutions")]
    else []

/-- The property of the command of a marker; the marker has to name it. -/
def property? (command : CommandMethod) (marker : AttributeSnapshot) : Option Member :=
  (marker.string? 0).map fun name =>
    .declare
      { attributes := [.fieldMaybeNull]
        modifiers := .publicAccess :: if command.method.isStatic then [.static] else [] } <|
      .property command.commandType name
        [.getting (.coalesceSet .backingField (.newImplicit (command.creation marker)))] none

/-- The properties of all commands that the method becomes. -/
def toMembers (command : CommandMethod) : List Member :=
  command.markers.filterMap command.property?

end CommandMethod

namespace CommandContext

/-- A type with its methods in the order of their names. -/
def ofGroup (group : Hierarchy × List CommandMethod) : CommandContext :=
  ⟨group.1, sortByText (·.method.name) group.2⟩

def toUnit (context : CommandContext) : CompilationUnit :=
  context.hierarchy.toUnit (context.methods.flatMap CommandMethod.toMembers) []

end CommandContext

def commandStage : CompilationStage CommandContext where
  kind := .command
  polls context := !context.methods.isEmpty
  units context := [(context.hierarchy.hint ".Command.g.cs", context.toUnit)]
  contexts compilation :=
    let methods :=
      (compilation.withAttribute Names.commandAttribute (· == .methodDeclaration)).filterMap
        CommandMethod.ofCandidate
    sortByText (·.hierarchy.fileHint) ((groupByKey methods).map CommandContext.ofGroup)

end SourceGen
