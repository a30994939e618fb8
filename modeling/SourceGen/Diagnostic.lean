import SourceGen.Syntax.Tree
import SourceGen.Text.Trim
/-! Findings about source code and additional files, and the rules that they come from. -/

namespace SourceGen

/-- How grave a finding is. -/
inductive Severity where
  | error
  | warning
  | info
  | hidden
  deriving DecidableEq, Repr

def Severity.name : Severity → String
  | error => "error"
  | warning => "warning"
  | info => "info"
  | hidden => "hidden"

/-- A stretch of bytes in a file. -/
structure Location where
  path : String
  start : Nat := 0
  stop : Nat := 0
  deriving DecidableEq, Repr

structure Diagnostic where
  id : String
  severity : Severity
  message : String
  location : Option Location := none
  deriving DecidableEq, Repr

namespace Diagnostic

def line (diagnostic : Diagnostic) : String :=
  let report :=
    diagnostic.severity.name ++ " " ++ diagnostic.id ++ ": " ++ diagnostic.message
  match diagnostic.location with
  | some location =>
    location.path ++ "(" ++ toString location.start ++ ".." ++ toString location.stop ++ "): " ++
      report
  | none => report

end Diagnostic

/-- A rule: what it reports, and how. -/
structure Rule where
  id : String
  title : String
  template : String
  category : String
  severity : Severity

/-- The text with every occurrence of a pattern replaced, from left to right. The pattern has at
least one character. -/
def replaceAll (pattern replacement : List Char) : List Char → List Char
  | [] => []
  | c :: rest =>
    if pattern.isPrefixOf (c :: rest) then
      replacement ++ replaceAll pattern replacement (rest.drop (pattern.length - 1))
    else c :: replaceAll pattern replacement rest
termination_by chars => chars.length

namespace Rule

def placeholder (index : Nat) : List Char :=
  '\x7b' :: (toString index).toList ++ ['\x7d']

/-- The template with the arguments from one on put in, one after the other. -/
def fill (index : Nat) (text : List Char) : List String → List Char
  | [] => text
  | argument :: rest =>
    fill (index + 1) (replaceAll (placeholder index) argument.toList text) rest

def report (rule : Rule) (location : Option Location) (arguments : List String) : Diagnostic where
  id := rule.id
  severity := rule.severity
  message := String.ofList (fill 0 rule.template.toList arguments)
  location := location

/-- Types are to be internal or private. -/
def restrictedType : Rule :=
  ⟨"SH001", "Type should be internal or private",
    "Type [\x7b0\x7d] should be internal or private", "Quality", .info⟩

/-- Methods are to return value tasks. -/
def valueTask : Rule :=
  ⟨"SH003", "Use ValueTask instead of Task", "Use ValueTask instead of Task", "Performance",
    .info⟩

/-- Values are not to be asserted not to be null. -/
def nullForgiving : Rule :=
  ⟨"SH007", "Use \"ArgumentNullException.ThrowIfNull()\"",
    "Use \"ArgumentNullException.ThrowIfNull()\"", "Quality", .info⟩

def slowCast : Rule :=
  ⟨"SH008", "Cast can be slow", "Cast can be slow, consider use Unsafe.As or Unsafe.Unbox",
    "Performance", .info⟩

/-- A resource file cannot be read. -/
def resourceUnreadable : Rule :=
  ⟨"SH401", "Couldn't parse Resx file", "Couldn't parse Resx file '\x7b0\x7d'",
    "ResxGenerator", .warning⟩

def resourceNamespace : Rule :=
  ⟨"SH402", "Couldn't compute namespace", "Couldn't compute namespace for file '\x7b0\x7d'",
    "ResxGenerator", .warning⟩

def resourceName : Rule :=
  ⟨"SH403", "Couldn't compute resource name",
    "Couldn't compute resource name for file '\x7b0\x7d'", "ResxGenerator", .warning⟩

/-- The files of a resource contradict each other. -/
def resourceInconsistent : Rule :=
  ⟨"SH404", "Inconsistent properties",
    "Property '\x7b0\x7d' values for '\x7b1\x7d' are inconsistent", "ResxGenerator", .warning⟩

/-- The name of a formatted resource hides that of its method. -/
def resourceFormatSuffix : Rule :=
  ⟨"SH405", "Resource data should not ends with 'Format'",
    "Resource data '\x7b0\x7d' should not ends with 'Format'", "ResxGenerator", .warning⟩

/-- The metadata of an endpoints file cannot be read. -/
def endpointsExtra : Rule :=
  ⟨"SH501", "Couldn't parse endpoints metadata",
    "Couldn't parse 'Extra' metadata in endpoints file '\x7b0\x7d': \x7b1\x7d",
    "EndpointsGenerator", .warning⟩

/-- A file of identity types cannot be read. -/
def identityStructs : Rule :=
  ⟨"SH502", "Couldn't parse identity structs",
    "Couldn't parse identity structs file '\x7b0\x7d': \x7b1\x7d", "IdentityGenerator", .warning⟩

def all : List Rule :=
  [restrictedType, valueTask, nullForgiving, slowCast, resourceUnreadable, resourceNamespace,
    resourceName, resourceInconsistent, resourceFormatSuffix, endpointsExtra, identityStructs]

end Rule

end SourceGen
