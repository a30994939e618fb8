import SourceGen.Syntax.Member
/-! Types, members and attributes of a program, as they are bound. -/

namespace SourceGen

/-- Who may use a declaration. -/
inductive Accessibility where
  | notApplicable
  | privateAccess
  | protectedAndInternal
  | protectedAccess
  | internalAccess
  | protectedOrInternal
  | publicAccess
  deriving DecidableEq, Repr

def Accessibility.modifiers : Accessibility → List Modifier
  | notApplicable => []
  | privateAccess => [.privateAccess]
  | protectedAndInternal => [.privateAccess, .protectedAccess]
  | protectedAccess => [.protectedAccess]
  | internalAccess => [.internalAccess]
  | protectedOrInternal => [.protectedAccess, .internalAccess]
  | publicAccess => [.publicAccess]

inductive TypeKind where
  | classType
  | structType
  | interfaceType
  | enumType
  | parameter
  | array
  | pointer
  deriving DecidableEq, Repr

/-- Types that the language spells with a keyword. -/
inductive SpecialType where
  | object | void | boolean | char | sbyte | byte | int16 | uint16 | int32 | uint32 | int64
  | uint64 | single | double | decimal | string | intPtr | uintPtr
  deriving DecidableEq, Repr

namespace SpecialType

def keyword : SpecialType → String
  | object => "object"
  | void => "void"
  | boolean => "bool"
  | char => "char"
  | sbyte => "sbyte"
  | byte => "byte"
  | int16 => "short"
  | uint16 => "ushort"
  | int32 => "int"
  | uint32 => "uint"
  | int64 => "long"
  | uint64 => "ulong"
  | single => "float"
  | double => "double"
  | decimal => "decimal"
  | string => "string"
  | intPtr => "nint"
  | uintPtr => "nuint"

/-- The name of a type in the namespace `System`. -/
def metadataName : SpecialType → String
  | object => "Object"
  | void => "Void"
  | boolean => "Boolean"
  | char => "Char"
  | sbyte => "SByte"
  | byte => "Byte"
  | int16 => "Int16"
  | uint16 => "UInt16"
  | int32 => "Int32"
  | uint32 => "UInt32"
  | int64 => "Int64"
  | uint64 => "UInt64"
  | single => "Single"
  | double => "Double"
  | decimal => "Decimal"
  | string => "String"
  | intPtr => "IntPtr"
  | uintPtr => "UIntPtr"

/-- All types that have a keyword. -/
def all : List SpecialType :=
  [object, void, boolean, char, sbyte, byte, int16, uint16, int32, uint32, int64, uint64, single,
    double, decimal, string, intPtr, uintPtr]

def ofKeyword? (word : String) : Option SpecialType :=
  all.find? (·.keyword = word)

/-- Whether values of a type are stored in place. -/
def isValue : SpecialType → Bool
  | object | string | void => false
  | _ => true

end SpecialType

/-- A constant of a type that has literals. -/
inductive Primitive where
  | string (value : String)
  | bool (value : Bool)
  | char (value : Char)
  | sbyte (value : Int8)
  | byte (value : UInt8)
  | short (value : Int16)
  | ushort (value : UInt16)
  | int (value : Int32)
  | uint (value : UInt32)
  | long (value : Int64)
  | ulong (value : UInt64)
  | float (bits : UInt32)
  | double (bits : UInt64)
  deriving DecidableEq, Repr

/-- An accessor as it is bound. -/
structure AccessorSymbol where
  accessibility : Accessibility
  isInitOnly : Bool := false
  deriving DecidableEq, Repr

/-- What a type is apart from the symbols it refers to. Only types that were declared one by one
have an identity. -/
structure TypeInfo where
  name : String
  kind : TypeKind
  special : Option SpecialType := none
  namespaceName : String := ""
  parameters : List String := []
  isUnbound : Bool := false
  isNullable : Bool := false
  isRecord : Bool := false
  isStatic : Bool := false
  isAbstract : Bool := false
  isSealed : Bool := false
  isPartial : Bool := true
  accessibility : Accessibility := .internalAccess
  identity : Option Nat := none
  deriving DecidableEq, Repr

inductive MethodKind where
  | ordinary
  | constructor
  deriving DecidableEq, Repr

mutual

/-- A named type, type parameter, array or pointer. -/
structure TypeSymbol where
  info : TypeInfo
  containing : Option TypeSymbol
  arguments : List TypeSymbol
  base : Option TypeSymbol
  interfaces : List TypeSymbol
  attributes : List AttributeData
  members : List MemberSymbol
  element : Option TypeSymbol

structure AttributeData where
  type : TypeSymbol
  arguments : List ConstantValue
  named : List (String × ConstantValue)

/-- A constant; an argument that failed to bind is an error. -/
inductive ConstantValue where
  | null
  | primitive (value : Primitive)
  | enumeration (type : TypeSymbol) (value : Int64)
  | type (type : TypeSymbol)
  | array (element : TypeSymbol) (items : List ConstantValue)
  | error

structure ParameterSymbol where
  name : String
  type : TypeSymbol

/-- A field. A field without a declaration of its own stores the value of a property. -/
structure FieldSymbol where
  name : String
  type : TypeSymbol
  accessibility : Accessibility
  isStatic : Bool
  isReadOnly : Bool
  isConstant : Bool
  hasInitializer : Bool
  backs : Option String
  constant : Option ConstantValue
  attributes : List AttributeData

/-- A property, or an indexer if it has parameters. -/
structure PropertySymbol where
  name : String
  type : TypeSymbol
  accessibility : Accessibility
  isStatic : Bool
  getter : Option AccessorSymbol
  setter : Option AccessorSymbol
  parameters : List ParameterSymbol
  isPartialDefinition : Bool
  returnsByRef : Bool
  attributes : List AttributeData

/-- A method or constructor, with its statements if any were written. -/
structure MethodSymbol where
  name : String
  kind : MethodKind
  returnType : TypeSymbol
  parameters : List ParameterSymbol
  accessibility : Accessibility
  isStatic : Bool
  isOverride : Bool
  isPartialDefinition : Bool
  attributes : List AttributeData
  body : Option (List Stmt)

inductive MemberSymbol where
  | field (field : FieldSymbol)
  | property (property : PropertySymbol)
  | method (method : MethodSymbol)

end

/-- What a declaration can be bound to. -/
inductive Symbol where
  | type (type : TypeSymbol)
  | field (field : FieldSymbol)
  | property (property : PropertySymbol)
  | method (method : MethodSymbol)

namespace TypeSymbol

/-- A type that refers to no other. -/
def ofInfo (info : TypeInfo) : TypeSymbol where
  info := info
  containing := none
  arguments := []
  base := none
  interfaces := []
  attributes := []
  members := []
  element := none

/-- A class, structure, interface or enumeration of a namespace. -/
def named (kind : TypeKind) (namespaceName name : String) : TypeSymbol :=
  ofInfo { name, kind, namespaceName }

def special (special : SpecialType) : TypeSymbol :=
  ofInfo
    { name := special.metadataName
      kind := if special.isValue then .structType else .classType
      special := some special
      namespaceName := "System"
      isPartial := false
      accessibility := .publicAccess }

def parameter (name : String) : TypeSymbol :=
  ofInfo { name, kind := .parameter, isPartial := false, accessibility := .notApplicable }

def array (element : TypeSymbol) : TypeSymbol :=
  { ofInfo { name := "", kind := .array, isPartial := false } with element := some element }

def pointer (element : TypeSymbol) : TypeSymbol :=
  { ofInfo { name := "", kind := .pointer, isPartial := false } with element := some element }

def construct (type : TypeSymbol) (arguments : List TypeSymbol) : TypeSymbol :=
  { type with
    info := { type.info with isUnbound := false, identity := none }
    arguments := arguments }

/-- A generic type as it is written without arguments. -/
def unbound (type : TypeSymbol) : TypeSymbol :=
  { type with info := { type.info with isUnbound := true, identity := none }, arguments := [] }

/-- A type annotated with a question mark. -/
def annotated (type : TypeSymbol) : TypeSymbol :=
  if type.info.isNullable then type
  else { type with info := { type.info with isNullable := true, identity := none } }

/-- Puts a type inside another one, in the namespace of that. -/
def nestIn (type outer : TypeSymbol) : TypeSymbol :=
  { type with
    info := { type.info with namespaceName := outer.info.namespaceName }
    containing := some outer }

/-- Whether two types are one and the same declared type. -/
def isSame (type other : TypeSymbol) : Bool :=
  type.info.identity.isSome && type.info.identity == other.info.identity

/-- Whether values of the type are stored in place. -/
def isValueType (type : TypeSymbol) : Bool :=
  type.info.kind == .structType || type.info.kind == .enumType || type.info.special.any (·.isValue)

def isReferenceType (type : TypeSymbol) : Bool :=
  match type.info.kind with
  | .classType | .interfaceType | .array => !type.info.special.any (·.isValue)
  | _ => false

/-- The number of parameters or arguments of the type. -/
def arity (type : TypeSymbol) : Nat :=
  max type.info.parameters.length type.arguments.length

def fields (type : TypeSymbol) : List FieldSymbol :=
  type.members.filterMap fun
    | .field field => some field
    | _ => none

def properties (type : TypeSymbol) : List PropertySymbol :=
  type.members.filterMap fun
    | .property property => some property
    | _ => none

def methods (type : TypeSymbol) : List MethodSymbol :=
  type.members.filterMap fun
    | .method method => some method
    | _ => none

end TypeSymbol

namespace ConstantValue

/-- The value of an integer or enumeration constant that fits 64 bits with a sign. -/
def integer? : ConstantValue → Option Int64
  | enumeration _ value => some value
  | primitive (.sbyte value) => some value.toInt64
  | primitive (.byte value) => some (Int64.ofNat value.toNat)
  | primitive (.short value) => some value.toInt64
  | primitive (.ushort value) => some (Int64.ofNat value.toNat)
  | primitive (.int value) => some value.toInt64
  | primitive (.uint value) => some (Int64.ofNat value.toNat)
  | primitive (.long value) => some value
  | primitive (.ulong value) =>
    if value.toNat < 1 <<< 63 then some (Int64.ofNat value.toNat) else none
  | _ => none

def string? : ConstantValue → Option String
  | primitive (.string value) => some value
  | _ => none

def bool? : ConstantValue → Option Bool
  | primitive (.bool value) => some value
  | _ => none

end ConstantValue

def TypeSymbol.enumMemberName? (type : TypeSymbol) (value : Int64) : Option String :=
  (type.fields.find? fun field =>
    field.isConstant && field.constant.bind ConstantValue.integer? == some value).map (·.name)

namespace FieldSymbol

/-- A private field. -/
def named (name : String) (type : TypeSymbol) : FieldSymbol where
  name := name
  type := type
  accessibility := .privateAccess
  isStatic := false
  isReadOnly := false
  isConstant := false
  hasInitializer := false
  backs := none
  constant := none
  attributes := []

def withConstant (field : FieldSymbol) (value : ConstantValue) : FieldSymbol :=
  { field with isConstant := true, isStatic := true, hasInitializer := true, constant := some value }

def enumMember (name : String) (value : Int64) (attributes : List AttributeData) : FieldSymbol :=
  { (named name (.special .int32)).withConstant (.primitive (.long value)) with
    accessibility := .publicAccess
    attributes := attributes }

/-- Whether the field has no declaration of its own. -/
def isImplicit (field : FieldSymbol) : Bool :=
  field.backs.isSome

end FieldSymbol

namespace PropertySymbol

/-- A public property that can be read and set. -/
def named (name : String) (type : TypeSymbol) : PropertySymbol where
  name := name
  type := type
  accessibility := .publicAccess
  isStatic := false
  getter := some { accessibility := .publicAccess }
  setter := some { accessibility := .publicAccess }
  parameters := []
  isPartialDefinition := false
  returnsByRef := false
  attributes := []

/-- A public indexer that can be read and set. -/
def indexer (type : TypeSymbol) (parameter : ParameterSymbol) : PropertySymbol :=
  { named "this[]" type with parameters := [parameter] }

def withAccessibility (property : PropertySymbol) (accessibility : Accessibility) :
    PropertySymbol :=
  { property with
    accessibility := accessibility
    getter := property.getter.map fun getter => { getter with accessibility := accessibility }
    setter := property.setter.map fun setter => { setter with accessibility := accessibility } }

/-- The property with a setter that works only while its object is made. -/
def initOnly (property : PropertySymbol) : PropertySymbol :=
  { property with setter := property.setter.map fun setter => { setter with isInitOnly := true } }

/-- The property with an accessibility for its setter alone. -/
def withSetterAccessibility (property : PropertySymbol) (accessibility : Accessibility) :
    PropertySymbol :=
  { property with
    setter := property.setter.map fun setter => { setter with accessibility := accessibility } }

def isIndexer (property : PropertySymbol) : Bool :=
  !property.parameters.isEmpty

end PropertySymbol

namespace MethodSymbol

/-- A public method. -/
def named (name : String) (returnType : TypeSymbol) : MethodSymbol where
  name := name
  kind := .ordinary
  returnType := returnType
  parameters := []
  accessibility := .publicAccess
  isStatic := false
  isOverride := false
  isPartialDefinition := false
  attributes := []
  body := none

/-- A public constructor. -/
def constructor (name : String) : MethodSymbol :=
  { named name (.special .void) with kind := .constructor }

end MethodSymbol

namespace Symbol

def attributes : Symbol → List AttributeData
  | type symbol => symbol.attributes
  | field symbol => symbol.attributes
  | property symbol => symbol.attributes
  | method symbol => symbol.attributes

def type? : Symbol → Option TypeSymbol
  | type symbol => some symbol
  | _ => none

def property? : Symbol → Option PropertySymbol
  | property symbol => some symbol
  | _ => none

def method? : Symbol → Option MethodSymbol
  | method symbol => some symbol
  | _ => none

end Symbol

end SourceGen
