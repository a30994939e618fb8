import SourceGen.Diagnostic
import SourceGen.Resource.Culture
import SourceGen.Resource.Data
import SourceGen.Resource.Path
import SourceGen.Text.Identifier
/-! Resource files: their data, their cultures, and the names that their classes get. -/

namespace SourceGen

/-- The class that a resource file belongs to. -/
structure ResourceKey where
  namespaceName : String
  className : String
  resourceName : String
  deriving DecidableEq, Repr

structure ResourceFile where
  path : String
  resourcePath : String
  locale : Locale
  key : ResourceKey
  data : List ResourceData
  deriving DecidableEq, Repr

namespace ResourceFile

def own? (settings : Settings) (name : String) : Option String :=
  settings.nonEmpty? ("build_metadata.AdditionalFiles." ++ name)

/-- A setting of the file itself, or one of the whole build. -/
def setting? (settings : Settings) (name property : String) : Option String :=
  (own? settings name).or (settings.nonEmpty? ("build_property." ++ property))

/-- The class of a resource file, as far as settings and path tell. It needs a namespace, then a
resource name; the rules say what is missing. -/
def key? (settings : Settings) (assemblyName : Option String) (resourcePath : String) :
    Except Rule ResourceKey :=
  let rooted (name : String) : String :=
    ((setting? settings name name).or assemblyName).getD ""
  let rootNamespace := rooted "RootNamespace"
  let projectDirectory := rooted "ProjectDir"
  match (setting? settings "Namespace" "DefaultResourcesNamespace").or
      (ResourcePath.namespace? rootNamespace projectDirectory resourcePath) with
  | none => .error .resourceNamespace
  | some namespaceName =>
    match (own? settings "ResourceName").or
        (ResourcePath.resourceName? rootNamespace projectDirectory resourcePath) with
    | none => .error .resourceName
    | some resourceName =>
      let className := (own? settings "ClassName").getD
        (Text.toIdentifier (String.ofList (lastPathPart resourcePath.toList)))
      .ok ⟨namespaceName, className, resourceName⟩

/-- Reads a resource file, or says why it is left out. -/
def read (input : FileInput) : Except Diagnostic ResourceFile :=
  let path := input.file.path
  let skipped (rule : Rule) : Diagnostic := rule.report (some { path := path }) [path]
  match ResourceData.read input.file.text with
  | none => .error (skipped .resourceUnreadable)
  | some data =>
    let (resourcePath, locale) := Culture.split path
    match key? input.settings input.assemblyName resourcePath with
    | .error rule => .error (skipped rule)
    | .ok key => .ok ⟨path, resourcePath, locale, key, data⟩

end ResourceFile

end SourceGen
