import SourceGen.Symbol.Constant
/-! The declarations that a source file has for its symbols. Each declaration is anchored at a path:
the number of its type among those at the top of the file, then its place inside. -/

namespace SourceGen

/-- A place among the declarations of a file, the innermost number first. -/
abbrev DeclarationPath := List Nat

/-- Declared symbols by their places. -/
abbrev Declared := List (DeclarationPath × Symbol)

namespace AttributeData

def toArguments (applied : AttributeData) : List Argument :=
  (applied.arguments.map fun value => .positional value.toExpr) ++
    applied.named.map fun (name, value) => .named name value.toExpr

/-- The attribute in brackets; without arguments it has no parentheses. -/
def toGroup (applied : AttributeData) : AttributeGroup :=
  let arguments := applied.toArguments
  .single ⟨applied.type.fullName, if arguments.isEmpty then none else some arguments⟩

end AttributeData

/-- A type as it is written with its annotations. -/
def TypeSymbol.written (type : TypeSymbol) : TypeExpr :=
  .parse type.annotatedName

/-- The modifiers that hold of a declaration, in order. -/
def modifiersIf (choices : List (Bool × Modifier)) : List Modifier :=
  choices.filterMap fun (holds, modifier) => if holds then some modifier else none

def ParameterSymbol.toParameter (parameter : ParameterSymbol) : Parameter :=
  { type := parameter.type.written, name := parameter.name }

/-- What stands in front of a declaration. -/
def declarationHeader (place : DeclarationPath) (attributes : List AttributeData)
    (modifiers : List Modifier) : Header :=
  { attributes := attributes.map AttributeData.toGroup
    modifiers := modifiers
    anchor := some (.declaration place) }

namespace FieldSymbol

def toMember (place : DeclarationPath) (field : FieldSymbol) : Member :=
  let modifiers := field.accessibility.modifiers ++
    if field.isConstant then [.constant]
    else modifiersIf [(field.isStatic, .static), (field.isReadOnly, .readOnly)]
  let initializer :=
    match field.constant with
    | some value => some value.toExpr
    | none => if field.hasInitializer then some Expr.default else none
  .declare (declarationHeader place field.attributes modifiers)
    (.field field.type.written field.name initializer)

def toEnumMember (field : FieldSymbol) : EnumMember where
  attributes := field.attributes.map AttributeData.toGroup
  name := field.name
  value := (field.constant.bind ConstantValue.integer?).map fun value =>
    .number (toString value.toInt)

end FieldSymbol

namespace PropertySymbol

/-- The declaration of an accessor; it repeats no accessibility of its property. -/
def toAccessor (property : PropertySymbol) (keyword : AccessorKeyword)
    (accessor : AccessorSymbol) : Accessor :=
  { keyword
    modifiers :=
      if accessor.accessibility = property.accessibility then []
      else accessor.accessibility.modifiers }

def toAccessors (property : PropertySymbol) : List Accessor :=
  (property.getter.map (property.toAccessor .get)).toList ++
    (property.setter.map fun setter =>
      property.toAccessor (if setter.isInitOnly then .init else .set) setter).toList

def toMember (place : DeclarationPath) (property : PropertySymbol) : Member :=
  let modifiers := property.accessibility.modifiers ++
    modifiersIf [(property.isStatic, .static), (property.isPartialDefinition, .partialDeclaration)]
  let type :=
    if property.returnsByRef then TypeExpr.parse ("ref " ++ property.type.annotatedName)
    else property.type.written
  .declare (declarationHeader place property.attributes modifiers) <|
    if property.isIndexer then
      .indexer type (property.parameters.map ParameterSymbol.toParameter) property.toAccessors
    else .property type property.name property.toAccessors none

end PropertySymbol

namespace MethodSymbol

/-- The declaration of a method, or of a constructor of the type with the given name. -/
def toMember (place : DeclarationPath) (owner : String) (method : MethodSymbol) : Member :=
  let modifiers := method.accessibility.modifiers ++
    modifiersIf
      [(method.isStatic, .static), (method.isOverride, .override),
        (method.isPartialDefinition, .partialDeclaration)]
  let parameters := method.parameters.map ParameterSymbol.toParameter
  let body :=
    if method.isPartialDefinition then Body.absent else .block (method.body.getD [])
  .declare (declarationHeader place method.attributes modifiers) <|
    match method.kind with
    | .constructor => .constructor owner parameters none body
    | .ordinary => .method method.returnType.written method.name [] parameters body

end MethodSymbol

namespace MemberSymbol

/-- The declaration of a member with its symbol; some fields have none. -/
def declare? (place : DeclarationPath) (owner : String) : MemberSymbol → Option (Member × Symbol)
  | field symbol =>
    if symbol.isImplicit then none else some (symbol.toMember place, .field symbol)
  | property symbol => some (symbol.toMember place, .property symbol)
  | method symbol => some (symbol.toMember place owner, .method symbol)

end MemberSymbol

namespace TypeSymbol

def declarationModifiers (type : TypeSymbol) : List Modifier :=
  let info := type.info
  info.accessibility.modifiers ++
    modifiersIf
      [(info.isStatic, .static), (info.isAbstract && info.kind == .classType, .abstract),
        (info.isSealed && info.kind == .classType, .sealed),
        (info.isPartial && info.kind != .enumType, .partialDeclaration)]

def declarationKeyword (type : TypeSymbol) : TypeKeyword :=
  match type.info.kind, type.info.isRecord with
  | .structType, false => .structType
  | .structType, true => .recordStruct
  | .interfaceType, _ => .interfaceType
  | _, true => .record
  | _, false => .classType

/-- The base types in the declaration of a type; that of all objects is not written. -/
def declarationBases (type : TypeSymbol) : List TypeExpr :=
  ((type.base.filter fun base => base.info.special != some .object).toList ++
    type.interfaces).map fun base => .parse base.fullName

def declareMembers (place : DeclarationPath) (type : TypeSymbol) : List (Member × Declared) :=
  type.members.zipIdx.filterMap fun (member, index) =>
    (member.declare? (index :: place) type.info.name).map fun (declaration, symbol) =>
      (declaration, [(index :: place, symbol)])

def nestedAmong (type : TypeSymbol) (types : List TypeSymbol) : List TypeSymbol :=
  types.filter fun other => other.containing.any (·.isSame type)

/-- The declaration of a type and of what it contains among the given types, to a depth. -/
def declareWithin (types : List TypeSymbol) :
    Nat → DeclarationPath → TypeSymbol → Member × Declared
  | depth, place, type =>
    let header := declarationHeader place type.attributes type.declarationModifiers
    if type.info.kind = .enumType then
      let members := (type.fields.filter (·.isConstant)).map FieldSymbol.toEnumMember
      (.declare header (.enumeration type.info.name members), [(place, .type type)])
    else
      let nested :=
        match depth with
        | 0 => []
        | depth + 1 =>
          (type.nestedAmong types).zipIdx.map fun (inner, index) =>
            declareWithin types depth ((type.members.length + index) :: place) inner
      let parts := type.declareMembers place ++ nested
      (.declare header
        (.type type.declarationKeyword type.info.name type.info.parameters type.declarationBases
          (parts.map (·.1))),
        (place, .type type) :: parts.flatMap (·.2))

/-- Whether the type that contains a type is not among the given ones. -/
def isTopAmong (type : TypeSymbol) (types : List TypeSymbol) : Bool :=
  type.containing.all fun outer => !types.any (·.isSame outer)

end TypeSymbol

/-- The file that declares the given types, in the namespace of the first of them that no other one
contains, and the symbols of its declarations. -/
def declareFile (types : List TypeSymbol) : CompilationUnit × Declared :=
  let top := types.filter (·.isTopAmong types)
  let parts := top.zipIdx.map fun (type, index) => type.declareWithin types types.length [index]
  ({ namespaceName := (top.head?.map (·.info.namespaceName)).getD ""
     members := parts.map (·.1) }, parts.flatMap (·.2))

end SourceGen
