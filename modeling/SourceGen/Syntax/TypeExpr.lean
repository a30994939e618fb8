import SourceGen.Syntax.Layout
/-! Types as they are written in a program. -/

namespace SourceGen

/-- What can be written behind a type. -/
inductive TypeSuffix where
  | question
  | brackets
  | star
  deriving DecidableEq, Repr

/-- A written type: the tokens of a name or display text, a name with type arguments, or a type
with a suffix. -/
inductive TypeExpr where
  | tokens (list : List Token)
  | generic (name : List Token) (arguments : List TypeExpr)
  | suffixed (type : TypeExpr) (suffix : TypeSuffix)

def TypeSuffix.kinds : TypeSuffix → List Kind
  | question => [.question]
  | brackets => [.leftBracket, .rightBracket]
  | star => [.star]

namespace TypeExpr

def parse (text : String) : TypeExpr :=
  tokens (Token.significant text)

def keyword (word : String) : TypeExpr :=
  tokens [.keyword word]

/-- No value. -/
def void : TypeExpr := keyword "void"

/-- Texts. -/
def string : TypeExpr := keyword "string"

/-- Any value. -/
def object : TypeExpr := keyword "object"

/-- Truth values. -/
def bool : TypeExpr := keyword "bool"

/-- Unsigned integers of 32 bits. -/
def uint : TypeExpr := keyword "uint"

/-- A name, which may be qualified, with type arguments. -/
def applied (name : String) (arguments : List TypeExpr) : TypeExpr :=
  generic (Token.significant name) arguments

/-- Whether the last token of the type itself is a question mark. -/
def isNullable : TypeExpr → Bool
  | tokens list => list.getLast?.any (·.kind == .question)
  | generic _ _ => false
  | suffixed _ suffix => suffix == .question

/-- The type with a question mark behind it, unless it already has one. -/
def nullable (type : TypeExpr) : TypeExpr :=
  if type.isNullable then type else suffixed type .question

def array (type : TypeExpr) : TypeExpr :=
  suffixed type .brackets

def pointer (type : TypeExpr) : TypeExpr :=
  suffixed type .star

mutual

/-- What the tree of a type has under its root. -/
def parts : TypeExpr → List Tree
  | tokens list => list.map Tree.leaf
  | generic name arguments =>
    name.map Tree.leaf ++ Tree.enclosed .leftAngle .rightAngle (treesOf arguments)
  | suffixed type suffix => type.parts ++ suffix.kinds.map Tree.punct

def treesOf : List TypeExpr → List Tree
  | [] => []
  | type :: types => Tree.plain .type type.parts :: treesOf types

end

def toTree (type : TypeExpr) : Tree :=
  .plain .type type.parts

def text (type : TypeExpr) : String :=
  type.toTree.inline

end TypeExpr

end SourceGen
