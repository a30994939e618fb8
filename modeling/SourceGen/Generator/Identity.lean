import SourceGen.Generator.Basic
import SourceGen.Generator.Phrase
import SourceGen.Json.Record
/-! Types that tell numbers of different meaning apart. -/

namespace SourceGen

/-- An identity: a number with a meaning of its own. -/
structure IdentityContext where
  name : String
  documentation : String
  deriving DecidableEq, Repr

namespace IdentityContext

def shape : Json.Shape := ⟨"IdentityStructEntry", ["Name", "Documentation"]⟩

/-- The identity of an entry, if it has a name. -/
def ofRecord (record : Json.Record) : Option IdentityContext :=
  match record with
  | some name :: rest => if name.isEmpty then none else some ⟨name, rest.head?.join.getD ""⟩
  | _ => none

/-- Reads a file, or says why it is left out. -/
def read (file : AdditionalFile) : Except Diagnostic (List IdentityContext) :=
  match Json.parse (Json.records shape) file.text with
  | .error message =>
    .error (Rule.identityStructs.report (some { path := file.path }) [file.path, message])
  | .ok records => .ok (records.filterMap ofRecord)

variable (context : IdentityContext)

def this : TypeExpr :=
  .parse context.name

def int : TypeExpr :=
  .keyword "int"

/-- Says how the type is read and written. -/
def converter : AttributeGroup :=
  .applied (Names.global "System.Text.Json.Serialization.JsonConverter")
    [.positional
      (.typeOf
        (.applied (Names.global "Snap.Hutao.Model.Primitive.Converter.IdentityConverter")
          [context.this]))]

def bases : List TypeExpr :=
  let this := context.this
  let numeric (name : String) (arguments : List TypeExpr) : TypeExpr :=
    .applied (Names.global "System.Numerics." ++ name) arguments
  [.parse (Names.global "System.IComparable"),
    .applied (Names.global "System.IComparable") [this],
    .applied (Names.global "System.IEquatable") [this],
    numeric "IEqualityOperators" [this, this, .bool],
    numeric "IEqualityOperators" [this, .uint, .bool],
    numeric "IComparisonOperators" [this, this, .bool],
    numeric "IAdditionOperators" [this, this, this],
    numeric "IAdditionOperators" [this, .uint, this],
    numeric "ISubtractionOperators" [this, this, this],
    numeric "ISubtractionOperators" [this, .uint, this],
    numeric "IIncrementOperators" [this],
    numeric "IDecrementOperators" [this]]

/-- The number of a variable. -/
def valueOf (name : String) : Expr :=
  (Expr.ident name).member "Value"

/-- A call of a method of the own number. -/
def onValue (method : String) (arguments : List Expr) : Expr :=
  ((Expr.ident "Value").member method).call arguments

/-- A type test that declares a variable. -/
def otherPattern : Pattern :=
  .declaration context.this "other"

/-- The number, the constructor and the conversions. -/
def valueMembers : List Member :=
  let conversion (target source : TypeExpr) (result : Expr) : Member :=
    .declare { modifiers := [.publicAccess, .static] }
      (.conversion true target [.simple source "value"] (.block [.result result]))
  [.declare { modifiers := [.publicAccess, .readOnly] } (.field .uint "Value" none),
    .declare { modifiers := [.publicAccess] }
      (.constructor context.name [.simple .uint "value"] none
        (.block [.expression (.set (.ident "Value") (.ident "value"))])),
    conversion .uint context.this (valueOf "value"),
    conversion context.this .uint (.newImplicit [.positional (.ident "value")])]

def compareObject : Member :=
  .method [.publicAccess] int "CompareTo" [.simple TypeExpr.object.nullable "obj"]
    [.ifThen (.isPattern (.ident "obj") (.constant .null)) [.result (.number "1")],
      .ifThen (.isPattern (.ident "obj") (.negated context.otherPattern))
        [.throw
          (.newObject (.parse (Names.global "System.ArgumentException"))
            [.positional (.string ("Object must be of type " ++ context.name ++ "."))])],
      .result (onValue "CompareTo" [valueOf "other"])]

def methods : List Member :=
  let method := Member.method [.publicAccess]
  let overriding := Member.method [.publicAccess, .override]
  [overriding .bool "Equals" [.simple TypeExpr.object.nullable "obj"]
      [.result
        (.binary (.isPattern (.ident "obj") context.otherPattern) .ampAmp
          ((Expr.ident "Equals").call [.ident "other"]))],
    overriding int "GetHashCode" [] [.result (onValue "GetHashCode" [])],
    overriding .string "ToString" [] [.result (onValue "ToString" [])],
    context.compareObject,
    method int "CompareTo" [.simple context.this "other"]
      [.result (onValue "CompareTo" [valueOf "other"])],
    method .bool "Equals" [.simple context.this "other"]
      [.result (.binary (.ident "Value") .equalEqual (valueOf "other"))]]

def operator (result : TypeExpr) (operator : Kind) (right : TypeExpr) (value : Expr) : Member :=
  .declare { modifiers := [.publicAccess, .static] }
    (.operator result operator [.simple context.this "left", .simple right "right"]
      (.block [.result value]))

/-- An operator applied to two numbers. -/
def onValues (operator : Kind) : Expr :=
  .binary (valueOf "left") operator (valueOf "right")

/-- The contrary of an expression. -/
def contrary (value : Expr) : Expr :=
  .prefixed .bang (.parenthesized value)

def equalityOperators : List Member :=
  let this := context.this
  [context.operator .bool .equalEqual this (onValues .equalEqual),
    context.operator .bool .notEqual this (contrary (onValues .equalEqual)),
    context.operator .bool .equalEqual .uint
      (.binary (valueOf "left") .equalEqual (.ident "right")),
    context.operator .bool .notEqual .uint
      (contrary (.binary (.ident "left") .equalEqual (.ident "right")))]

/-- The operators that compare. -/
def orderOperators : List Member :=
  [Kind.less, .greater, .lessEqual, .greaterEqual].map fun operator =>
    context.operator .bool operator context.this (onValues operator)

/-- The operators that add and subtract. -/
def arithmeticOperators : List Member :=
  [Kind.plus, .minus].flatMap fun operator =>
    [context.operator context.this operator context.this (onValues operator),
      context.operator context.this operator .uint
        (.binary (valueOf "left") operator (.ident "right"))]

/-- The operators that step up and down. -/
def stepOperators : List Member :=
  [Kind.plusPlus, .minusMinus].map fun operator =>
    let target : Expr :=
      .prefixed .star (.cast TypeExpr.uint.pointer (.prefixed .amp (.ident "value")))
    .declare { modifiers := [.publicAccess, .static, .unchecked] }
      (.operator context.this operator [.simple context.this "value"]
        (.block [.expression (.prefixed operator target), .result (.ident "value")]))

def declaration : Member :=
  .declare
    { trivia := Trivia.summary {} [context.documentation]
      attributes := [context.converter]
      modifiers := [.internalAccess, .readOnly, .partialDeclaration] }
    (.type .structType context.name [] context.bases
      (context.valueMembers ++ context.methods ++ context.equalityOperators ++
        context.orderOperators ++ context.arithmeticOperators ++ context.stepOperators))

def toUnit : CompilationUnit where
  trivia := .nullableEnable
  namespaceName := "Snap.Hutao.Model.Primitive"
  members := [context.declaration]

end IdentityContext

def identityStage : FileStage IdentityContext where
  kind := .identity
  polls _ := true
  units context := [(context.name ++ ".g.cs", context.toUnit)]
  reads := AdditionalFile.isIdentities
  Reading := Except Diagnostic (List IdentityContext)
  decideReading := decideReading
  read input := IdentityContext.read input.file
  assemble := .ofReadings

end SourceGen
