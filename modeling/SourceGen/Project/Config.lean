import SourceGen.Syntax.Layout
import SourceGen.Text.Trim
/-! Build metadata, the files it belongs to, and the options read from it. -/

namespace SourceGen

/-- A file other than source code. -/
structure AdditionalFile where
  path : String
  text : String
  deriving DecidableEq, Repr

def isPathSeparator (c : Char) : Bool :=
  c = '/' || c = '\\'

def lastPathPart (path : List Char) : List Char :=
  (path.reverse.takeWhile fun c => !isPathSeparator c).reverse

/-- The part of a path up to and including its last separator. -/
def directoryPart (path : List Char) : List Char :=
  (path.reverse.dropWhile fun c => !isPathSeparator c).reverse

/-- What stands in front of the last dot and behind it. -/
def splitLastDot? (chars : List Char) : Option (List Char × List Char) :=
  if '.' ∈ chars then
    let after := (chars.reverse.takeWhile (· ≠ '.')).reverse
    some (chars.take (chars.length - after.length - 1), after)
  else none

namespace AdditionalFile

/-- The last part of the path. -/
def fileName (file : AdditionalFile) : String :=
  String.ofList (lastPathPart file.path.toList)

/-- Whether the path ends with a text, upper and lower case of ASCII letters being the same. -/
def hasSuffix (file : AdditionalFile) (suffix : String) : Bool :=
  Text.endsWith (Text.asciiLower file.path).toList (Text.asciiLower suffix).toList

def isResource (file : AdditionalFile) : Bool :=
  file.hasSuffix ".resx"

def isEndpoints (file : AdditionalFile) : Bool :=
  file.hasSuffix "Endpoints.csv"

def isIdentities (file : AdditionalFile) : Bool :=
  file.hasSuffix "IdentityStructs.json"

end AdditionalFile

/-- Values by key, the newest first. -/
abbrev Settings := List (String × String)

/-- The newest value of a key. -/
def Settings.get? (settings : Settings) (key : String) : Option String :=
  settings.lookup key

/-- The newest value of a key, unless it is empty. -/
def Settings.nonEmpty? (settings : Settings) (key : String) : Option String :=
  (settings.get? key).filter fun value => !value.isEmpty

/-- Build metadata: settings of the whole build, and settings of single files by their path. -/
structure BuildConfig where
  globals : Settings := []
  files : List (String × String × String) := []
  deriving DecidableEq, Repr

namespace BuildConfig

def setGlobal (config : BuildConfig) (key value : String) : BuildConfig :=
  { config with globals := (key, value) :: config.globals }

def setForFile (config : BuildConfig) (path key value : String) : BuildConfig :=
  { config with files := (path, key, value) :: config.files }

def ownSettings (config : BuildConfig) (path : String) : Settings :=
  config.files.filterMap fun (owner, setting) => if owner = path then some setting else none

/-- The settings that a file sees: its own, then those of the whole build. -/
def forFile (config : BuildConfig) (path : String) : Settings :=
  config.ownSettings path ++ config.globals

def global? (config : BuildConfig) (key : String) : Option String :=
  config.globals.get? key

def value? (config : BuildConfig) (path key : String) : Option String :=
  (config.forFile path).get? key

end BuildConfig

/-- An additional file, with the settings that it sees and the name of the assembly that it belongs
to. -/
structure FileInput where
  file : AdditionalFile
  settings : Settings
  assemblyName : Option String
  deriving DecidableEq, Repr

/-- The files with the settings that they see and the name of their assembly. -/
def BuildConfig.inputs (config : BuildConfig) (assemblyName : Option String)
    (files : List AdditionalFile) : List FileInput :=
  files.map fun file => ⟨file, config.forFile file.path, assemblyName⟩

/-- What generation and analysis can be told. -/
structure GeneratorOptions where
  layout : Layout := {}
  analyzeGenerated : Bool := false
  parallelAnalysis : Bool := true
  emitMarkers : Bool := true
  deriving DecidableEq, Repr

namespace GeneratorOptions

/-- A bound on the width of an indentation. -/
def sizeBound : Nat := 1 <<< 64

/-- The width of an indentation: a positive number. -/
def indentSize? (value : String) : Option Nat :=
  (Text.decimalBelow? sizeBound (Text.trim value)).filter (0 < ·)

def newLine? (value : String) : Option NewLine :=
  match Text.asciiLower (Text.trim value) with
  | "lf" => some .lf
  | "crlf" => some .crlf
  | _ => none

def flag? (value : String) : Option Bool :=
  match Text.asciiLower (Text.trim value) with
  | "true" => some true
  | "false" => some false
  | _ => none

/-- The options that the settings of a build ask for; a value that cannot be read leaves the default
in place. -/
def ofConfig (config : BuildConfig) : GeneratorOptions :=
  let setting {α : Type} (key : String) (read : String → Option α) (default : α) : α :=
    ((config.global? ("build_property.SnapGen" ++ key)).bind read).getD default
  { layout :=
      { tabSize := setting "IndentSize" indentSize? 4
        newLine := setting "NewLine" newLine? .lf }
    analyzeGenerated := setting "AnalyzeGeneratedCode" flag? false
    emitMarkers := setting "EmitMarkerAttributes" flag? true }

end GeneratorOptions

end SourceGen
