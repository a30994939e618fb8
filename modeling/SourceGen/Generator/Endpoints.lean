import SourceGen.Generator.Basic
import SourceGen.Generator.Phrase
import SourceGen.Json.Record
import SourceGen.Syntax.Signature
import SourceGen.Text.Csv
import SourceGen.Text.Markup
/-! Endpoints of an interface to the web, one implementation per region. -/

namespace SourceGen

/-- A method, and the templates of its address in each region. -/
structure Endpoint where
  method : String
  chinese : String
  oversea : String
  deriving DecidableEq, Repr

structure EndpointsContext where
  name : String
  namespaceName : Option String
  endpoints : List Endpoint
  deriving DecidableEq, Repr

inductive EndpointsLine where
  | nothing
  | namespaceName (name : Option String)
  | endpoint (endpoint : Endpoint)
  deriving DecidableEq, Repr

namespace EndpointsLine

/-- The shape of what a file says about itself. -/
def extraShape : Json.Shape := ⟨"ExtraInfo", ["Namespace"]⟩

/-- The endpoint of a row. A row without a method is ignored. -/
def ofFields : List String → EndpointsLine
  | [] => nothing
  | method :: templates =>
    if method.isEmpty then nothing
    else endpoint ⟨method, templates.getD 0 "", templates.getD 1 ""⟩

/-- Reads a line: what the file says about itself, or a row. -/
def parse (line : String) : Except String EndpointsLine :=
  let chars := line.toList
  if line = "" ∨ line = "Name,CN,OS" then .ok nothing
  else if (chars.take 6).map Char.toLower = "extra:".toList then
    (Json.parse (Json.record extraShape) (String.ofList (chars.drop 6))).map fun record =>
      namespaceName record.head?.join
  else .ok (ofFields (Text.csvFields line))

def endpoint? : EndpointsLine → Option Endpoint
  | endpoint found => some found
  | _ => none

/-- The namespace of a line, which may be none. -/
def namespace? : EndpointsLine → Option (Option String)
  | namespaceName name => some name
  | _ => none

/-- Reads lines up to the first that cannot be read. -/
def parseAll : List String → Except String (List EndpointsLine)
  | [] => .ok []
  | line :: rest =>
    match parse line with
    | .error message => .error message
    | .ok first => (parseAll rest).map (first :: ·)

end EndpointsLine

namespace EndpointsContext

/-- The context of a file, unless it has no endpoints. The last namespace counts. -/
def ofLines (file : AdditionalFile) (lines : List EndpointsLine) : Option EndpointsContext :=
  let endpoints := lines.filterMap EndpointsLine.endpoint?
  let fileName := file.fileName.toList
  let name := ((splitLastDot? fileName).map (·.1)).getD fileName
  if endpoints.isEmpty then none
  else
    some ⟨String.ofList name, (lines.filterMap EndpointsLine.namespace?).getLast?.join, endpoints⟩

/-- Reads a file, or says why it is left out. -/
def read (file : AdditionalFile) : Except Diagnostic (Option EndpointsContext) :=
  match EndpointsLine.parseAll (Text.lines file.text) with
  | .error message =>
    .error (Rule.endpointsExtra.report (some { path := file.path }) [file.path, message])
  | .ok lines => .ok (ofLines file lines)

end EndpointsContext

namespace Endpoint

def templateLine (region template : String) : String :=
  "<code>" ++ region ++ ": " ++ Text.ampersands template ++ "</code>"

/-- The method of the interface. -/
def declaration? (endpoint : Endpoint) : Option Member :=
  (Signature.parse? endpoint.method).map fun signature =>
    .declare
      { trivia := Trivia.summary {}
          [templateLine "CN" endpoint.chinese, templateLine "OS" endpoint.oversea] }
      (signature.toDeclaration .absent)

/-- The method of an implementation. A region without a template is not supported. -/
def implementation? (template : Endpoint → String) (endpoint : Endpoint) : Option Member :=
  (Signature.parse? endpoint.method).map fun signature =>
    let address := template endpoint
    .declare { modifiers := [.publicAccess] } <| signature.toDeclaration <| .expression <|
      if address.isEmpty then .throwNotSupported else .interpolated address

end Endpoint

namespace EndpointsContext

variable (context : EndpointsContext)

def interfaceName : String :=
  "I" ++ context.name

def interface : Member :=
  .declare { modifiers := [.internalAccess, .partialDeclaration] }
    (.type .interfaceType context.interfaceName [] []
      (context.endpoints.filterMap Endpoint.declaration?))

def implementation (region : String) (template : Endpoint → String) : Member :=
  .declare { modifiers := [.internalAccess, .abstract] }
    (.type .classType (context.name ++ "ImplementationFor" ++ region) []
      [.parse context.interfaceName]
      (context.endpoints.filterMap (Endpoint.implementation? template)))

def toUnit : CompilationUnit where
  trivia := .nullableEnable
  namespaceName := context.namespaceName.getD "Snap.Hutao.Web"
  members :=
    [context.interface, context.implementation "Chinese" Endpoint.chinese,
      context.implementation "Oversea" Endpoint.oversea]

end EndpointsContext

def endpointsStage : FileStage EndpointsContext where
  kind := .endpoints
  polls context := !context.endpoints.isEmpty
  units context := [(context.name ++ ".g.cs", context.toUnit)]
  reads := AdditionalFile.isEndpoints
  Reading := Except Diagnostic (Option EndpointsContext)
  decideReading := decideReading
  read input := EndpointsContext.read input.file
  assemble readings := .ofReadings (readings.map fun reading => reading.map Option.toList)

end SourceGen
