import SourceGen.Syntax.Tree
/-! Words in front of a declaration, parameter or lambda. -/

namespace SourceGen

/-- What a word in front of a declaration, parameter or lambda says about it. -/
inductive Modifier where
  | publicAccess | privateAccess | protectedAccess | internalAccess | fileLocal | static
  | readOnly | partialDeclaration | abstract | sealed | override | virtual | foreign
  | unchecked | constant | implicit | explicit | receiver | variadic | byRef | byOut | byIn
  | scopedRef | required
  deriving DecidableEq, Repr

namespace Modifier

def word : Modifier → String
  | publicAccess => "public"
  | privateAccess => "private"
  | protectedAccess => "protected"
  | internalAccess => "internal"
  | fileLocal => "file"
  | static => "static"
  | readOnly => "readonly"
  | partialDeclaration => "partial"
  | abstract => "abstract"
  | sealed => "sealed"
  | override => "override"
  | virtual => "virtual"
  | foreign => "extern"
  | unchecked => "unsafe"
  | constant => "const"
  | implicit => "implicit"
  | explicit => "explicit"
  | receiver => "this"
  | variadic => "params"
  | byRef => "ref"
  | byOut => "out"
  | byIn => "in"
  | scopedRef => "scoped"
  | required => "required"

def all : List Modifier :=
  [publicAccess, privateAccess, protectedAccess, internalAccess, fileLocal, static, readOnly,
    partialDeclaration, abstract, sealed, override, virtual, foreign, unchecked, constant,
    implicit, explicit, receiver, variadic, byRef, byOut, byIn, scopedRef, required]

def ofWord? (word : String) : Option Modifier :=
  all.find? (·.word = word)

def tree (modifiers : List Modifier) : Tree :=
  .plain .modifiers (modifiers.map fun modifier => .keyword modifier.word)

/-- The tree of a list of modifiers, unless the list is empty. -/
def trees (modifiers : List Modifier) : List Tree :=
  if modifiers.isEmpty then [] else [tree modifiers]

end Modifier

end SourceGen
