import SourceGen.Symbol.Basic
import SourceGen.Text.Trim
/-! The names that types are shown and looked up by, and the types that a type builds on. -/

namespace SourceGen

/-- How much of a type is shown. -/
structure DisplayStyle where
  global : Bool := true
  qualified : Bool := true
  arguments : Bool := true
  referenceNullability : Bool := false

namespace DisplayStyle

def ofArgument (style : DisplayStyle) : DisplayStyle :=
  { style with qualified := true, global := true }

def ofContaining (style : DisplayStyle) : DisplayStyle :=
  { style with global := false, arguments := true }

end DisplayStyle

namespace TypeInfo

/-- What stands in front of the name of a type, given the text of the containing type. -/
def qualifier (info : TypeInfo) (style : DisplayStyle) (outer : Option String) : String :=
  if !style.qualified then ""
  else
    (if style.global then "global::" else "") ++
      match outer with
      | some text => text ++ "."
      | none => if info.namespaceName.isEmpty then "" else info.namespaceName ++ "."

/-- What stands behind the name of a type, given the texts of its arguments. -/
def argumentText (info : TypeInfo) (style : DisplayStyle) (arguments : List String) : String :=
  if !style.arguments then ""
  else if !arguments.isEmpty then "<" ++ Text.join ", " arguments ++ ">"
  else if info.isUnbound then
    "<" ++ String.ofList (List.replicate (info.parameters.length - 1) ',') ++ ">"
  else if !info.parameters.isEmpty then "<" ++ Text.join ", " info.parameters ++ ">"
  else ""

def namedText (info : TypeInfo) (style : DisplayStyle) (outer : Option String)
    (arguments : List String) : String :=
  info.qualifier style outer ++ info.name ++ info.argumentText style arguments

/-- The annotation behind a type. Pointers have none; those of references are not always shown. -/
def annotation (info : TypeInfo) (style : DisplayStyle) (isValue : Bool) : String :=
  if info.isNullable && (isValue || style.referenceNullability) && info.kind != .pointer then "?"
  else ""

end TypeInfo

namespace TypeSymbol

mutual

/-- A named type without its annotation. -/
def displayName (style : DisplayStyle) : TypeSymbol → String
  | ⟨info, containing, arguments, _, _, _, _, _⟩ =>
    info.namedText style (displayOuter style.ofContaining containing)
      (displayAll style.ofArgument arguments)

def displayOuter (style : DisplayStyle) : Option TypeSymbol → Option String
  | none => none
  | some outer => some (displayName style outer)

def display (style : DisplayStyle) : TypeSymbol → String
  | ⟨info, containing, arguments, base, interfaces, attributes, members, element⟩ =>
    let text := match info.kind with
      | .array => displayElement style element ++ "[]"
      | .pointer => displayElement style element ++ "*"
      | .parameter => info.name
      | _ =>
        match info.special with
        | some special => special.keyword
        | none =>
          info.namedText style (displayOuter style.ofContaining containing)
            (displayAll style.ofArgument arguments)
    text ++ info.annotation style
      (isValueType ⟨info, containing, arguments, base, interfaces, attributes, members, element⟩)

/-- The element of an array or pointer. -/
def displayElement (style : DisplayStyle) : Option TypeSymbol → String
  | none => ""
  | some element => display style element

def displayAll (style : DisplayStyle) : List TypeSymbol → List String
  | [] => []
  | type :: types => display style type :: displayAll style types

end

/-- The type with its namespace and containing types. -/
def fullName (type : TypeSymbol) : String :=
  type.display {}

/-- The full name with the annotations of references. -/
def annotatedName (type : TypeSymbol) : String :=
  type.display { referenceNullability := true }

/-- The full name without the type arguments of the type itself. -/
def bareName (type : TypeSymbol) : String :=
  type.display { arguments := false }

/-- The name as it is written inside the declaration of the type. -/
def minimalName (type : TypeSymbol) : String :=
  type.display { global := false, qualified := false }

def nameWithArity (name : String) (arity : Nat) : String :=
  if arity = 0 then name else name ++ "`" ++ toString arity

mutual

/-- The name that markers are matched against: containing types with plus signs, and arities. -/
def fullMetadataName : TypeSymbol → String
  | ⟨info, containing, arguments, _, _, _, _, element⟩ =>
    let own := nameWithArity info.name (max info.parameters.length arguments.length)
    match info.kind with
    | .array => elementMetadataName element ++ "[]"
    | .pointer => elementMetadataName element ++ "*"
    | .parameter => info.name
    | _ =>
      match outerMetadataName containing with
      | some outer => outer ++ "+" ++ own
      | none => if info.namespaceName.isEmpty then own else info.namespaceName ++ "." ++ own

def elementMetadataName : Option TypeSymbol → String
  | none => ""
  | some element => element.fullMetadataName

def outerMetadataName : Option TypeSymbol → Option String
  | none => none
  | some outer => some outer.fullMetadataName

end

/-- The name with the number of type parameters, without namespace and containing types. -/
def metadataName (type : TypeSymbol) : String :=
  match type.info.kind with
  | .array | .pointer => type.fullMetadataName
  | _ => nameWithArity type.info.name type.arity

/-- The base types of a type, the nearest first. -/
def bases : TypeSymbol → List TypeSymbol
  | ⟨_, _, _, none, _, _, _, _⟩ => []
  | ⟨_, _, _, some base, _, _, _, _⟩ => base :: base.bases

/-- The types around a type, the innermost first. -/
def enclosing : TypeSymbol → List TypeSymbol
  | ⟨_, none, _, _, _, _, _, _⟩ => []
  | ⟨_, some outer, _, _, _, _, _, _⟩ => outer :: outer.enclosing

/-- Whether a base type has a metadata name. -/
def inheritsFrom (type : TypeSymbol) (name : String) : Bool :=
  type.bases.any (·.fullMetadataName == name)

/-- Whether the type or a base type has a metadata name. -/
def isOrInherits (type : TypeSymbol) (name : String) : Bool :=
  type.fullMetadataName == name || type.inheritsFrom name

mutual

/-- Adds a type, and then what it builds on, to the interfaces seen, unless one of its full name is
among them. -/
def visit (seen : List TypeSymbol) : TypeSymbol → List TypeSymbol
  | ⟨info, containing, arguments, base, interfaces, attributes, members, element⟩ =>
    let type : TypeSymbol :=
      ⟨info, containing, arguments, base, interfaces, attributes, members, element⟩
    if seen.any (·.fullName == type.fullName) then seen
    else visitAll (seen ++ [type]) interfaces

/-- Adds several types in order. -/
def visitAll (seen : List TypeSymbol) : List TypeSymbol → List TypeSymbol
  | [] => seen
  | type :: types => visitAll (visit seen type) types

end

/-- The interfaces of the type, those of its base types, and those that they build on. -/
def allInterfaces (type : TypeSymbol) : List TypeSymbol :=
  visitAll [] ((type :: type.bases).flatMap fun current => current.interfaces.reverse)

/-- Whether one of all interfaces has a metadata name. -/
def implements (type : TypeSymbol) (name : String) : Bool :=
  type.allInterfaces.any (·.fullMetadataName == name)

def hasAttribute (type : TypeSymbol) (name : String) : Bool :=
  type.attributes.any (·.type.fullMetadataName == name)

end TypeSymbol

end SourceGen
