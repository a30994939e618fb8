/-! The generators, and what can go wrong when they are run. -/

namespace SourceGen

/-- The generators, in the order in which they run. -/
inductive GeneratorKind where
  | attributes | constructor | service | httpClient | dependencyProperty | command | bindable
  | fieldAccessor | extendedEnum | unloadOverride | propertyValues | resource | endpoints
  | identity
  deriving DecidableEq, Repr

namespace GeneratorKind

def name : GeneratorKind → String
  | attributes => "AttributeGenerator"
  | constructor => "ConstructorGenerator"
  | service => "ServiceGenerator"
  | httpClient => "HttpClientGenerator"
  | dependencyProperty => "DependencyPropertyGenerator"
  | command => "CommandGenerator"
  | bindable => "BindableCustomPropertyGenerator"
  | fieldAccessor => "FieldAccessorGenerator"
  | extendedEnum => "ExtendedEnumGenerator"
  | unloadOverride => "UnloadObjectOverrideGenerator"
  | propertyValues => "PropertyValuesProviderGenerator"
  | resource => "ResxGenerator"
  | endpoints => "ApiEndpointsGenerator"
  | identity => "IdentityGenerator"

/-- The place of a generator in the order of a run. -/
def rank (kind : GeneratorKind) : Nat :=
  kind.ctorIdx

end GeneratorKind

/-- Why a text is no composite format. -/
inductive FormatFault where
  | unexpectedEnd
  | unescapedBrace
  | expectedIndex
  | expectedDigit
  | tooLarge
  | unexpectedCharacter
  | braceInItem
  deriving DecidableEq, Repr

def FormatFault.message : FormatFault → String
  | unexpectedEnd => "unexpected end of format string"
  | unescapedBrace => "unescaped '\x7d'"
  | expectedIndex => "expected an argument index"
  | expectedDigit => "expected a digit"
  | tooLarge => "number too large in format item"
  | unexpectedCharacter => "unexpected character in format item"
  | braceInItem => "'\x7b' inside a format item"

/-- Why something could not be done. -/
inductive Failure where
  | cancelled
  | notSingle (count : Nat)
  | unboundArgument
  | format (text : String) (fault : FormatFault)
  | capacity (generator : GeneratorKind)
  | duplicateHint (generator : GeneratorKind) (hint : String)
  deriving DecidableEq, Repr

namespace Failure

def message : Failure → String
  | cancelled => "operation was cancelled"
  | notSingle count =>
    "sequence contains " ++ toString count ++ " elements, expected exactly one"
  | unboundArgument => "Unsupported constant: argument failed to bind"
  | format text fault => "Invalid format string '" ++ text ++ "': " ++ fault.message
  | capacity generator => generator.name ++ " failed: capacity overflow"
  | duplicateHint generator hint =>
    generator.name ++ " failed: duplicate hint name '" ++ hint ++ "'"

end Failure

def single {α : Type} : List α → Except Failure α
  | [item] => .ok item
  | items => .error (.notSingle items.length)

end SourceGen
