import SourceGen.Generator.Basic
import SourceGen.Generator.Phrase
/-! The declarations of the attributes that the other generators look for. -/

namespace SourceGen

structure TypedName where
  type : String
  name : String
  deriving DecidableEq, Repr

namespace TypedName

def toParameter (item : TypedName) : Parameter :=
  .simple (.parse item.type) item.name

def toProperty (item : TypedName) : Member :=
  .declare { modifiers := [.publicAccess] }
    (.property (.parse item.type) item.name Accessor.automatic none)

end TypedName

/-- An attribute class: what it may be put on and how, and its members. -/
structure MarkerClass where
  name : String
  targets : List String
  typeParameters : List String := []
  allowsMultiple : Bool := false
  isInherited : Bool := false
  impliesUse : Bool := false
  constructors : List (List TypedName) := []
  properties : List TypedName := []
  deriving DecidableEq, Repr

/-- A file that declares attribute classes. -/
structure MarkerFile where
  hint : String
  namespaceName : String
  classes : List MarkerClass
  deriving DecidableEq, Repr

namespace MarkerClass

/-- One of the things that an attribute can be put on. -/
def targetExpr (target : String) : Expr :=
  .member (.qualified (Names.global "System.AttributeTargets")) target

/-- All things that the attribute can be put on. -/
def targetsExpr (marker : MarkerClass) : Expr :=
  match marker.targets.map targetExpr with
  | [] => targetExpr "All"
  | first :: rest => rest.foldl (fun left right => .binary left .pipe right) first

/-- The attribute that says how this attribute is used; defaults are left out. -/
def usage (marker : MarkerClass) : AttributeGroup :=
  .applied (Names.global "System.AttributeUsage") <|
    [.positional marker.targetsExpr] ++
      (if marker.allowsMultiple then [.named "AllowMultiple" (.bool true)] else []) ++
      if marker.isInherited then [] else [.named "Inherited" (.bool false)]

/-- The declaration of a constructor that takes the given parameters and does nothing. -/
def constructorMember (marker : MarkerClass) (parameters : List TypedName) : Member :=
  .declare { modifiers := [.publicAccess] }
    (.constructor marker.name (parameters.map TypedName.toParameter) none (.block []))

def toMember (marker : MarkerClass) : Member :=
  let useGroups :=
    if marker.impliesUse then
      [.single ⟨Names.global "JetBrains.Annotations.MeansImplicitUse", none⟩]
    else []
  .declare { attributes := useGroups ++ [marker.usage], modifiers := [.internalAccess, .sealed] }
    (.type .classType marker.name marker.typeParameters [.parse (Names.global "System.Attribute")]
      (marker.constructors.map marker.constructorMember ++
        marker.properties.map TypedName.toProperty))

end MarkerClass

namespace MarkerFile

def toUnit (file : MarkerFile) : CompilationUnit where
  trivia := .nullableEnable
  namespaceName := file.namespaceName
  members := file.classes.map MarkerClass.toMember

/-- Attributes of classes and members. -/
def annotations : MarkerFile where
  hint := "Snap.Hutao.Core.Annotation.Attributes.g.cs"
  namespaceName := "Snap.Hutao.Core.Annotation"
  classes :=
    [{ name := "CommandAttribute"
       targets := ["Method"]
       constructors :=
         [[⟨"string", "commandName"⟩],
           [⟨"string", "commandName"⟩, ⟨"string", "canExecuteName"⟩]]
       properties := [⟨"bool", "AllowConcurrentExecutions"⟩] },
     { name := "GeneratedConstructorAttribute"
       targets := ["Constructor"]
       properties := [⟨"bool", "CallBaseConstructor"⟩, ⟨"bool", "InitializeComponent"⟩] },
     { name := "BindableCustomPropertyProviderAttribute"
       targets := ["Class"] },
     { name := "DependencyPropertyAttribute"
       targets := ["Class"]
       typeParameters := ["T"]
       allowsMultiple := true
       constructors := [[⟨"string", "name"⟩]]
       properties :=
         [⟨"bool", "IsAttached"⟩, ⟨"global::System.Type?", "TargetType"⟩,
           ⟨"object?", "DefaultValue"⟩, ⟨"string?", "CreateDefaultValueCallbackName"⟩,
           ⟨"string?", "PropertyChangedCallbackName"⟩, ⟨"bool", "NotNull"⟩] },
     { name := "FieldAccessorAttribute"
       targets := ["Property"] }]

/-- Attributes of classes that get a client of their own. -/
def httpClient : MarkerFile where
  hint := "Snap.Hutao.Core.DependencyInjection.Annotation.HttpClient.Attributes.g.cs"
  namespaceName := "Snap.Hutao.Core.DependencyInjection.Annotation.HttpClient"
  classes :=
    [{ name := "HttpClientAttribute"
       targets := ["Class"]
       impliesUse := true
       constructors :=
         [[⟨"HttpClientConfiguration", "configuration"⟩],
           [⟨"HttpClientConfiguration", "configuration"⟩,
             ⟨"global::System.Type", "serviceType"⟩]] },
     { name := "PrimaryHttpMessageHandlerAttribute"
       targets := ["Class"]
       properties :=
         [⟨"int", "MaxAutomaticRedirections"⟩, ⟨"int", "MaxConnectionsPerServer"⟩,
           ⟨"int", "MaxResponseDrainSize"⟩, ⟨"int", "MaxResponseHeadersLength"⟩,
           ⟨"bool", "PreAuthenticate"⟩,
           ⟨"global::System.Net.Http.HttpKeepAlivePingPolicy", "KeepAlivePingPolicy"⟩,
           ⟨"bool", "AllowAutoRedirect"⟩,
           ⟨"global::System.Net.DecompressionMethods", "AutomaticDecompression"⟩,
           ⟨"bool", "UseCookies"⟩, ⟨"bool", "EnableMultipleHttp2Connections"⟩,
           ⟨"bool", "EnableMultipleHttp3Connections"⟩, ⟨"int", "InitialHttp2StreamWindowSize"⟩,
           ⟨"bool", "UseProxy"⟩] }]

/-- Attributes of services and of members that are resolved from them. -/
def services : MarkerFile where
  hint := "Snap.Hutao.Core.DependencyInjection.Annotation.Attributes.g.cs"
  namespaceName := "Snap.Hutao.Core.DependencyInjection.Annotation"
  classes :=
    let lifetime : TypedName :=
      ⟨"global::Microsoft.Extensions.DependencyInjection.ServiceLifetime", "serviceLifetime"⟩
    [{ name := "ServiceAttribute"
       targets := ["Class"]
       constructors := [[lifetime], [lifetime, ⟨"global::System.Type", "serviceType"⟩]]
       properties := [⟨"object?", "Key"⟩] },
     { name := "FromKeyedServicesAttribute"
       targets := ["Field", "Property"]
       isInherited := true
       constructors := [[⟨"object", "key"⟩]] }]

/-- Attributes of enumerations whose members have texts. -/
def localization : MarkerFile where
  hint := "Snap.Hutao.Resource.Localization.Attributes.g.cs"
  namespaceName := "Snap.Hutao.Resource.Localization"
  classes :=
    [{ name := "ExtendedEnumAttribute"
       targets := ["Enum"]
       isInherited := true },
     { name := "LocalizationKeyAttribute"
       targets := ["Field"]
       isInherited := true
       constructors := [[⟨"string", "key"⟩]] }]

/-- The attribute of methods that stand in for a call. -/
def interception : MarkerFile where
  hint := "System.Runtime.CompilerServices.InterceptsLocationAttribute.g.cs"
  namespaceName := "System.Runtime.CompilerServices"
  classes :=
    [{ name := "InterceptsLocationAttribute"
       targets := ["Method"]
       allowsMultiple := true
       isInherited := true
       constructors := [[⟨"int", "version"⟩, ⟨"string", "data"⟩]] }]

def all : List MarkerFile :=
  [annotations, httpClient, services, localization, interception]

end MarkerFile

/-- The files of attributes; they depend on nothing. -/
def markerStage : Stage Unit where
  kind := .attributes
  polls _ := true
  units _ := MarkerFile.all.map fun file => (file.hint, file.toUnit)

/-- One unit of work if the attributes are asked for. -/
def collectMarkers (wanted : Bool) : Collected Unit :=
  { contexts := if wanted then [()] else [] }

end SourceGen
