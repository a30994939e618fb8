import SourceGen.Generator.Phrase
import SourceGen.Resource.Entry
import SourceGen.Text.Markup
/-! Classes through which resources are looked up. -/

namespace SourceGen

namespace ResourceEntry

/-- The text with spaces behind it that fill up eight characters. -/
def padded (text : String) : String :=
  text ++ String.ofList (List.replicate (8 - text.length) ' ')

def valueLine (value : ResourceValue) : String :=
  "<code>" ++
    Text.markup (padded value.locale ++ " Value: \"" ++ value.value.getD "" ++ "\"") ++ "</code>"

/-- The documentation of the comment, unless it is blank. -/
def commentLine (entry : ResourceEntry) : String :=
  match entry.comment with
  | some comment =>
    if (Text.trim comment).isEmpty then "" else "<para>" ++ Text.markup comment ++ "</para>"
  | none => ""

def documentation (entry : ResourceEntry) : Trivia :=
  Trivia.doc {} <|
    "<summary><para>Looks up a localized string for \"" ++ Text.markup entry.name ++
      "\".</para>" ++ entry.commentLine ++ Text.join "" (entry.values.map valueLine) ++
      "</summary>"

/-- The call that looks the text of the entry up. -/
def lookup (entry : ResourceEntry) (arguments : List Expr) : Expr :=
  ((Expr.ident "GetString").call (.string entry.name :: arguments)).suppressNull

def property (entry : ResourceEntry) : Member :=
  .declare { trivia := entry.documentation, modifiers := [.publicAccess, .static] }
    (.computed .string entry.name (entry.lookup []))

/-- The names of the arguments that the text of the entry takes. -/
def argumentNames (entry : ResourceEntry) : List String :=
  (List.range entry.formatArguments).map fun index => "arg" ++ toString index

def formatMethod (entry : ResourceEntry) : Member :=
  .declare
    { trivia := Trivia.doc {} ("<inheritdoc cref=\"" ++ entry.name ++ "\"/>")
      modifiers := [.publicAccess, .static] } <|
    .method .string ("Format" ++ entry.name) []
      (entry.argumentNames.map (.simple TypeExpr.object.nullable))
      (.expression (entry.lookup (entry.argumentNames.map .ident)))

def toMembers (entry : ResourceEntry) : List Member :=
  entry.property :: if 0 < entry.formatArguments then [entry.formatMethod] else []

def toEnumMember (entry : ResourceEntry) : EnumMember where
  trivia := entry.documentation
  name := entry.name

end ResourceEntry

namespace ResourceContext

/-- Says that a member is of no interest to most. -/
def rarelyUsed : AttributeGroup :=
  .applied (Names.global "System.ComponentModel.EditorBrowsable")
    [.positional
      (.member (.qualified (Names.global "System.ComponentModel.EditorBrowsableState"))
        "Advanced")]

/-- Says that a method returns something if a parameter is something. -/
def notNullIf (parameter : String) : AttributeGroup :=
  ⟨some "return",
    [⟨Names.global "System.Diagnostics.CodeAnalysis.NotNullIfNotNull",
      some [.positional (.nameOf parameter)]⟩]⟩

/-- The type of cultures, which may be missing. -/
def cultureType : TypeExpr :=
  (TypeExpr.parse Names.cultureInfo).nullable

/-- Any value, or none. -/
def objectType : TypeExpr :=
  TypeExpr.object.nullable

/-- A text, or none. -/
def textType : TypeExpr :=
  TypeExpr.string.nullable

/-- A stream, or none. -/
def streamType : TypeExpr :=
  (TypeExpr.parse (Names.global "System.IO.Stream")).nullable

def nameParameter : Parameter :=
  .simple .string "name"

def cultureParameter : Parameter :=
  .simple cultureType "culture"

/-- The parameter for the value in place of a missing resource. -/
def defaultParameter : Parameter :=
  .simple objectType "defaultValue"

def argumentsParameter : Parameter :=
  { modifiers := [.variadic], type := objectType.array.nullable, name := "args" }

def nameExpr : Expr := .ident "name"

/-- The culture of the class in place of one that is missing. -/
def cultureOrDefault : Expr :=
  .coalesce (.ident "culture") (.ident "Culture")

/-- A call of a method of the resource manager. -/
def managed (method : String) (culture : Expr) : Expr :=
  ((Expr.ident "ResourceManager").member method).call [nameExpr, culture]

/-- The resource manager, which is made when it is first asked for. -/
def managerProperty (key : ResourceKey) : Member :=
  .declare
    { attributes := [.fieldMaybeNull, rarelyUsed], modifiers := [.publicAccess, .static] } <|
    .property (.parse Names.resourceManager) "ResourceManager"
      [.getting
        (.coalesceSet .backingField
          (.newImplicit
            [.positional (.string key.resourceName),
              .positional (.member (.typeOf (.parse key.className)) "Assembly")]))]
      none

def cultureProperty : Member :=
  .declare { attributes := [rarelyUsed], modifiers := [.publicAccess, .static] }
    (.property cultureType "Culture" Accessor.automatic none)

def lookupMethod (result : TypeExpr) (name : String) (parameters : List Parameter)
    (statements : List Stmt) : Member :=
  .method [.publicAccess, .static] result name (nameParameter :: parameters) statements

/-- Leaves a method with a value if an argument is missing. -/
def leaveIfNull (name : String) (value : Expr) : Stmt :=
  .ifThen (.isPattern (.ident name) (.constant .null)) [.result value]

def objectMethods : List Member :=
  let lookup := lookupMethod objectType "GetObject"
  let again (culture default : Expr) : List Stmt :=
    [.result ((Expr.ident "GetObject").call [nameExpr, culture, default])]
  [(lookup [cultureParameter, defaultParameter]
      [.result
        (.coalesce (managed "GetObject" cultureOrDefault) (.ident "defaultValue"))]).withAttributes
      (notNullIf "defaultValue"),
    lookup [cultureParameter] (again (.ident "culture") .default),
    lookup [] (again .default .default),
    (lookup [defaultParameter] (again .default (.ident "defaultValue"))).withAttributes
      (notNullIf "defaultValue")]

def streamMethods : List Member :=
  [lookupMethod streamType "GetStream" [cultureParameter]
      [.result (managed "GetStream" cultureOrDefault)],
    lookupMethod streamType "GetStream" []
      [.result ((Expr.ident "GetStream").call [nameExpr, .default])]]

def textMethods : List Member :=
  let lookup := lookupMethod textType "GetString"
  [lookup [cultureParameter, argumentsParameter]
      [.expression (.coalesceSet (.ident "culture") (.ident "Culture")),
        .declare textType "str" (managed "GetString" (.ident "culture")),
        leaveIfNull "str" .default,
        leaveIfNull "args" (.ident "str"),
        .result
          ((Expr.member (.type .string) "Format").call
            [.ident "culture", .ident "str", .ident "args"])],
    lookup [argumentsParameter]
      [.result ((Expr.ident "GetString").call [nameExpr, .default, .ident "args"])],
    lookup [cultureParameter] [.result (managed "GetString" cultureOrDefault)],
    lookup [] [.result (managed "GetString" (.ident "Culture"))]]

def sharedMembers (key : ResourceKey) : List Member :=
  [managerProperty key, cultureProperty] ++ objectMethods ++ streamMethods ++ textMethods

variable (context : ResourceContext)

def file (member : Member) : CompilationUnit where
  trivia := .nullableEnable
  namespaceName := context.key.namespaceName
  members := [member]

def classUnit : CompilationUnit :=
  context.file <|
    .classOf [.internalAccess, .abstract, .partialDeclaration] context.key.className
      (sharedMembers context.key ++ context.entries.flatMap ResourceEntry.toMembers)

def namesUnit : CompilationUnit :=
  context.file <|
    .declare { modifiers := [.internalAccess] }
      (.enumeration (context.key.className ++ "Name")
        (context.entries.map ResourceEntry.toEnumMember))

end ResourceContext

def resourceStage : FileStage ResourceContext where
  kind := .resource
  polls context := !context.entries.isEmpty
  units context :=
    [(context.key.resourceName ++ ".cs", context.classUnit),
      (context.key.resourceName ++ "Name.cs", context.namesUnit)]
  reads := AdditionalFile.isResource
  Reading := Except Diagnostic ResourceFile
  decideReading := decideReading
  read := ResourceFile.read
  assemble := ResourceContext.group

end SourceGen
