import SourceGen.Generator.Basic
import SourceGen.Generator.Phrase
import SourceGen.Snapshot.Type
/-! Names and localized descriptions for the members of enumerations. -/

namespace SourceGen

/-- A member of an enumeration, with the key of its text. -/
structure ExtendedEnumMember where
  name : String
  key : Option String
  deriving DecidableEq, Repr

/-- An enumeration whose members have texts. -/
structure ExtendedEnumContext where
  fileHint : String
  type : TypeSnapshot
  members : List ExtendedEnumMember
  deriving DecidableEq

namespace ExtendedEnumMember

def ofSymbol (field : FieldSymbol) : Except Failure ExtendedEnumMember :=
  (AttributeSnapshot.ofAll field.attributes).map fun attributes =>
    ⟨field.name,
      (AttributeSnapshot.find? attributes Names.localizationKeyAttribute).bind (·.string? 0)⟩

end ExtendedEnumMember

namespace ExtendedEnumContext

def ofSymbol (type : TypeSymbol) : Except Failure ExtendedEnumContext :=
  (collectAll ExtendedEnumMember.ofSymbol (type.fields.filter (·.isConstant))).map fun members =>
    ⟨type.fullMetadataName, .ofSymbol type, members⟩

def ofCandidate (candidate : AttributeCandidate) : Option ExtendedEnumContext :=
  candidate.symbol.type?.bind fun type => (ofSymbol type).toOption

def valueExpr : Expr := .ident "value"

/-- The texts to look into. -/
def managerExpr : Expr := .ident "resourceManager"

def managerParameter : Parameter :=
  .simple (.parse Names.resourceManager) "resourceManager"

def cultureParameter : Parameter :=
  .simple (.parse Names.cultureInfo) "cultureInfo"

/-- The culture of the program. -/
def currentCulture : Expr :=
  .member (.qualified Names.cultureInfo) "CurrentCulture"

def emptyText : Expr :=
  .member (.type .string) "Empty"

variable (context : ExtendedEnumContext)

def enumType : TypeExpr :=
  context.type.written true

def receiver : Parameter :=
  .extended context.enumType "value"

def arm (name : String) (result : String) : Arm :=
  .case (.constant (.member (.type context.enumType) name)) (.string result)

def nameArms : List Arm :=
  context.members.map (fun member => context.arm member.name member.name) ++
    [.case .discard
      ((Expr.member (.qualified (Names.global "System.Enum")) "GetName").call [valueExpr])]

def keyArms : List Arm :=
  context.members.filterMap (fun member => member.key.map (context.arm member.name)) ++
    [.case .discard emptyText]

def method (name : String) (parameters : List Parameter) (statements : List Stmt) : Member :=
  .method [.publicAccess, .static] TypeExpr.string.nullable name
    (context.receiver :: parameters) statements

def methods : List Member :=
  let orDefault := "GetLocalizedDescriptionOrDefault"
  let described := "GetLocalizedDescription"
  let call (name : String) (arguments : List Expr) : Expr := (Expr.ident name).call arguments
  [context.method "GetName" [] [.result (.switch valueExpr context.nameArms)],
    context.method orDefault [managerParameter, cultureParameter]
      [.declare .string "key" (.switch valueExpr context.keyArms),
        .result ((managerExpr.member "GetString").call [.ident "key", .ident "cultureInfo"])],
    context.method orDefault [managerParameter]
      [.result (call orDefault [valueExpr, managerExpr, currentCulture])],
    context.method described [managerParameter, cultureParameter]
      [.result
        (.coalesce (call orDefault [valueExpr, managerExpr, .ident "cultureInfo"])
          (.coalesce (call "GetName" [valueExpr]) emptyText))],
    context.method described [managerParameter]
      [.result (call described [valueExpr, managerExpr, currentCulture])]]

def toUnit : CompilationUnit where
  usings := ["System.Globalization"]
  trivia := .nullableEnable
  namespaceName := "Snap.Hutao.Resource.Localization"
  members :=
    [.classOf [.internalAccess, .static, .partialDeclaration] (context.type.name ++ "Extension")
      context.methods]

end ExtendedEnumContext

/-- The generator of texts for enumerations. -/
def extendedEnumStage : CompilationStage ExtendedEnumContext where
  kind := .extendedEnum
  polls _ := true
  units context := [(context.fileHint ++ ".g.cs", context.toUnit)]
  contexts compilation :=
    (compilation.withAttribute Names.extendedEnumAttribute (· == .enumDeclaration)).filterMap
      ExtendedEnumContext.ofCandidate

end SourceGen
