import SourceGen.Snapshot.Constant
/-! Attributes and type arguments without the symbols that they refer to. -/

namespace SourceGen

/-- A type argument, or a type parameter of a generic type. -/
structure TypeArgument where
  name : String
  fullName : String
  annotatedName : String
  deriving DecidableEq

namespace TypeArgument

def ofSymbol (type : TypeSymbol) : TypeArgument :=
  ⟨type.info.name, type.fullName, type.annotatedName⟩

def written (argument : TypeArgument) : TypeExpr :=
  .parse argument.annotatedName

end TypeArgument

structure AttributeSnapshot where
  name : String
  metadataName : String
  typeArguments : List TypeArgument
  arguments : List Constant
  named : List (String × Constant)
  deriving DecidableEq

namespace AttributeSnapshot

def snapshotNamed : List (String × ConstantValue) → Except Failure (List (String × Constant))
  | [] => .ok []
  | (name, value) :: rest =>
    match Constant.ofValue value with
    | .error failure => .error failure
    | .ok constant => (snapshotNamed rest).map ((name, constant) :: ·)

/-- The snapshot of an attribute. It fails if an argument failed to bind. -/
def ofData (data : AttributeData) : Except Failure AttributeSnapshot :=
  match Constant.ofValues data.arguments, snapshotNamed data.named with
  | .ok arguments, .ok named =>
    .ok
      { name := data.type.fullName
        metadataName := data.type.fullMetadataName
        typeArguments := data.type.arguments.map TypeArgument.ofSymbol
        arguments := arguments
        named := named }
  | .error failure, _ => .error failure
  | _, .error failure => .error failure

def ofAll : List AttributeData → Except Failure (List AttributeSnapshot)
  | [] => .ok []
  | data :: rest =>
    match ofData data with
    | .error failure => .error failure
    | .ok snapshot => (ofAll rest).map (snapshot :: ·)

def written (snapshot : AttributeSnapshot) : AttributeUse where
  name := snapshot.name
  arguments := some <|
    (snapshot.arguments.map fun value => .positional value.toExpr) ++
      snapshot.named.map fun (name, value) => .named name value.toExpr

def string? (snapshot : AttributeSnapshot) (index : Nat) : Option String :=
  snapshot.arguments[index]?.bind Constant.string?

def namedValue? (snapshot : AttributeSnapshot) (name : String) : Option Constant :=
  snapshot.named.lookup name

def namedString? (snapshot : AttributeSnapshot) (name : String) : Option String :=
  (snapshot.namedValue? name).bind Constant.string?

/-- Whether a named argument is set to a truth value. -/
def sets (snapshot : AttributeSnapshot) (name : String) (value : Bool) : Bool :=
  (snapshot.namedValue? name).bind Constant.bool? == some value

def find? (snapshots : List AttributeSnapshot) (metadataName : String) :
    Option AttributeSnapshot :=
  snapshots.find? (·.metadataName == metadataName)

end AttributeSnapshot

end SourceGen
