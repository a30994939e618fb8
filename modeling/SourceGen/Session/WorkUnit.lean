import SourceGen.Generator.Bindable
import SourceGen.Generator.Command
import SourceGen.Generator.Constructor
import SourceGen.Generator.DependencyProperty
import SourceGen.Generator.Endpoints
import SourceGen.Generator.ExtendedEnum
import SourceGen.Generator.FieldAccessor
import SourceGen.Generator.HttpClient
import SourceGen.Generator.Identity
import SourceGen.Generator.Marker
import SourceGen.Generator.PropertyValues
import SourceGen.Generator.Resource
import SourceGen.Generator.Service
import SourceGen.Generator.UnloadOverride
/-! The units of work of all generators. -/

namespace SourceGen

namespace GeneratorKind

def all : List GeneratorKind :=
  [attributes, constructor, service, httpClient, dependencyProperty, command, bindable,
    fieldAccessor, extendedEnum, unloadOverride, propertyValues, resource, endpoints, identity]

/-- What a unit of work of a generator is made from. -/
def Context : GeneratorKind → Type
  | attributes => Unit
  | constructor => ConstructorContext
  | service => ServiceContext
  | httpClient => HttpClientContext
  | dependencyProperty => DependencyPropertyContext
  | command => CommandContext
  | bindable => BindableContext
  | fieldAccessor => FieldAccessorContext
  | extendedEnum => ExtendedEnumContext
  | unloadOverride => UnloadOverrideContext
  | propertyValues => PropertyValuesContext
  | resource => ResourceContext
  | endpoints => EndpointsContext
  | identity => IdentityContext

instance : (kind : GeneratorKind) → DecidableEq kind.Context
  | attributes => inferInstanceAs (DecidableEq Unit)
  | constructor => inferInstanceAs (DecidableEq ConstructorContext)
  | service => inferInstanceAs (DecidableEq ServiceContext)
  | httpClient => inferInstanceAs (DecidableEq HttpClientContext)
  | dependencyProperty => inferInstanceAs (DecidableEq DependencyPropertyContext)
  | command => inferInstanceAs (DecidableEq CommandContext)
  | bindable => inferInstanceAs (DecidableEq BindableContext)
  | fieldAccessor => inferInstanceAs (DecidableEq FieldAccessorContext)
  | extendedEnum => inferInstanceAs (DecidableEq ExtendedEnumContext)
  | unloadOverride => inferInstanceAs (DecidableEq UnloadOverrideContext)
  | propertyValues => inferInstanceAs (DecidableEq PropertyValuesContext)
  | resource => inferInstanceAs (DecidableEq ResourceContext)
  | endpoints => inferInstanceAs (DecidableEq EndpointsContext)
  | identity => inferInstanceAs (DecidableEq IdentityContext)

/-- How the files of a generator are made. -/
def stage : (kind : GeneratorKind) → Stage kind.Context
  | attributes => markerStage
  | constructor => constructorStage.toStage
  | service => serviceStage.toStage
  | httpClient => httpClientStage.toStage
  | dependencyProperty => dependencyPropertyStage.toStage
  | command => commandStage.toStage
  | bindable => bindableStage.toStage
  | fieldAccessor => fieldAccessorStage.toStage
  | extendedEnum => extendedEnumStage.toStage
  | unloadOverride => unloadOverrideStage.toStage
  | propertyValues => propertyValuesStage.toStage
  | resource => resourceStage.toStage
  | endpoints => endpointsStage.toStage
  | identity => identityStage.toStage

end GeneratorKind

structure WorkUnit where
  kind : GeneratorKind
  context : kind.Context
  deriving DecidableEq

namespace WorkUnit

def emit (unit : WorkUnit) (layout : Layout) (cancelled : Bool) :
    Except Failure (List GeneratedFile) :=
  unit.kind.stage.emit layout cancelled unit.context

end WorkUnit

/-- What generators collect their units of work from. -/
structure RunInput where
  markers : Bool
  compilation : Option Compilation
  files : Option (List FileInput)

/-- From which part of its input a generator collects its units of work. -/
inductive Origin (Context : Type) where
  | options (collect : Bool → Collected Context)
  | program (stage : CompilationStage Context)
  | files (stage : FileStage Context)

namespace Origin

variable {Context : Type}

/-- What a generator collects. Without a program or files there is nothing to collect from them. All
files are looked through one by one, also those that the generator does not read. -/
def collect (origin : Origin Context) (input : RunInput) (cancelled : Bool) :
    Except Failure (Collected Context) :=
  match origin with
  | options collect => .ok (collect input.markers)
  | program stage =>
    match input.compilation with
    | none => .ok { contexts := [] }
    | some compilation => stage.collect compilation cancelled
  | files stage =>
    match input.files with
    | none => .ok { contexts := [] }
    | some inputs =>
      if cancelled && !inputs.isEmpty then .error .cancelled else .ok (stage.gather inputs)

/-- Whether the generator collects from the program. -/
def isProgram : Origin Context → Bool
  | program _ => true
  | _ => false

/-- Whether the generator collects from the additional files. -/
def isFiles : Origin Context → Bool
  | files _ => true
  | _ => false

/-- Whether the generator finds in some files what it finds in others. -/
def readsAlike (origin : Origin Context) (inputs others : List FileInput) : Bool :=
  match origin with
  | files stage => stage.readsAlike inputs others
  | _ => true

end Origin

/-- From where a generator collects its units of work. -/
def GeneratorKind.origin : (kind : GeneratorKind) → Origin kind.Context
  | attributes => .options collectMarkers
  | constructor => .program constructorStage
  | service => .program serviceStage
  | httpClient => .program httpClientStage
  | dependencyProperty => .program dependencyPropertyStage
  | command => .program commandStage
  | bindable => .program bindableStage
  | fieldAccessor => .program fieldAccessorStage
  | extendedEnum => .program extendedEnumStage
  | unloadOverride => .program unloadOverrideStage
  | propertyValues => .program propertyValuesStage
  | resource => .files resourceStage
  | endpoints => .files endpointsStage
  | identity => .files identityStage

end SourceGen
