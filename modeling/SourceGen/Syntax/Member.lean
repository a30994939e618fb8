import SourceGen.Syntax.Expr
import SourceGen.Syntax.Trivia
/-! Declarations and whole files, and the trees they are written as. -/

namespace SourceGen

structure AttributeUse where
  name : String
  arguments : Option (List Argument) := none

/-- Attributes in one pair of brackets, for the declaration or for what is named in front. -/
structure AttributeGroup where
  target : Option String := none
  attributes : List AttributeUse

inductive Body where
  | block (statements : List Stmt)
  | expression (value : Expr)
  | absent

/-- A parameter of a method, constructor, operator or indexer. -/
structure Parameter where
  modifiers : List Modifier := []
  type : TypeExpr
  name : String
  default : Option Expr := none

inductive AccessorKeyword where
  | get
  | set
  | init
  deriving DecidableEq, Repr

structure Accessor where
  keyword : AccessorKeyword
  modifiers : List Modifier := []
  body : Body := .absent

/-- What stands in front of every declaration. -/
structure Header where
  trivia : Trivia := {}
  attributes : List AttributeGroup := []
  modifiers : List Modifier := []
  anchor : Option Anchor := none

structure EnumMember where
  trivia : Trivia := {}
  attributes : List AttributeGroup := []
  name : String
  value : Option Expr := none

inductive TypeKeyword where
  | classType
  | structType
  | interfaceType
  | record
  | recordStruct
  deriving DecidableEq, Repr

mutual

/-- A declaration with what stands in front of it. -/
inductive Member where
  | declare (header : Header) (declaration : Declaration)

inductive Declaration where
  | type (keyword : TypeKeyword) (name : String) (typeParameters : List String)
      (bases : List TypeExpr) (members : List Member)
  | enumeration (name : String) (members : List EnumMember)
  | field (type : TypeExpr) (name : String) (initializer : Option Expr)
  | property (type : TypeExpr) (name : String) (accessors : List Accessor)
      (initializer : Option Expr)
  | computed (type : TypeExpr) (name : String) (value : Expr)
  | indexer (type : TypeExpr) (parameters : List Parameter) (accessors : List Accessor)
  | method (result : TypeExpr) (name : String) (typeParameters : List String)
      (parameters : List Parameter) (body : Body)
  | constructor (name : String) (parameters : List Parameter)
      (baseArguments : Option (List Argument)) (body : Body)
  | operator (result : TypeExpr) (operator : Kind) (parameters : List Parameter) (body : Body)
  | conversion (implicit : Bool) (target : TypeExpr) (parameters : List Parameter) (body : Body)

end

/-- A file: using directives, an optional namespace, and members. -/
structure CompilationUnit where
  usings : List String := []
  trivia : Trivia := {}
  namespaceName : String := ""
  members : List Member := []

def TypeKeyword.words : TypeKeyword → List String
  | .classType => ["class"]
  | .structType => ["struct"]
  | .interfaceType => ["interface"]
  | .record => ["record"]
  | .recordStruct => ["record", "struct"]

def TypeKeyword.kind : TypeKeyword → Kind
  | .classType => .classDeclaration
  | .structType => .structDeclaration
  | .interfaceType => .interfaceDeclaration
  | .record => .recordDeclaration
  | .recordStruct => .recordStructDeclaration

def AccessorKeyword.word : AccessorKeyword → String
  | .get => "get"
  | .set => "set"
  | .init => "init"

namespace AttributeUse

def toTree (use : AttributeUse) : Tree :=
  .plain .attribute <| (TypeExpr.parse use.name).toTree ::
    (use.arguments.map fun arguments => argumentListTree (argumentTrees arguments)).toList

end AttributeUse

namespace AttributeGroup

def single (use : AttributeUse) : AttributeGroup :=
  ⟨none, [use]⟩

def toTree (group : AttributeGroup) : Tree :=
  let target := group.target.map fun word =>
    Tree.plain .attributeTarget [.keyword word, .punct .colon]
  .plain .attributeList <| .punct .leftBracket :: target.toList ++
    Tree.separated (group.attributes.map AttributeUse.toTree) ++ [.punct .rightBracket]

end AttributeGroup

/-- The tree of an expression that computes a member. -/
def arrowTree (value : Expr) : Tree :=
  .plain .arrowExpressionClause [.punct .fatArrow, value.toTree]

def Body.trees : Body → List Tree
  | .block statements => [blockTree (statementTrees statements)]
  | .expression value => [arrowTree value, .punct .semicolon]
  | .absent => [.punct .semicolon]

/-- The tree of an initial or default value, if there is one. -/
def valueTrees (value : Option Expr) : List Tree :=
  (value.map fun value => equalsValueTree value.toTree).toList

namespace Parameter

def toTree (parameter : Parameter) : Tree :=
  .plain .parameter <| Modifier.trees parameter.modifiers ++
    [parameter.type.toTree, .ident parameter.name] ++ valueTrees parameter.default

def listTree (parameters : List Parameter) : Tree :=
  .plain .parameterList (Tree.enclosed .leftParen .rightParen (parameters.map toTree))

def bracketedTree (parameters : List Parameter) : Tree :=
  .plain .bracketedParameterList
    (Tree.enclosed .leftBracket .rightBracket (parameters.map toTree))

end Parameter

namespace Accessor

def toTree (accessor : Accessor) : Tree :=
  .plain .accessorDeclaration <| Modifier.trees accessor.modifiers ++
    .keyword accessor.keyword.word :: accessor.body.trees

def listTree (accessors : List Accessor) : Tree :=
  .plain .accessorList (.punct .leftBrace :: accessors.map toTree ++ [.punct .rightBrace])

end Accessor

def typeParameterTrees (names : List String) : List Tree :=
  if names.isEmpty then []
  else
    [.plain .typeParameterList (Tree.enclosed .leftAngle .rightAngle (names.map Tree.ident))]

def baseTrees (bases : List TypeExpr) : List Tree :=
  if bases.isEmpty then []
  else
    [.plain .baseList (.punct .colon :: Tree.separated (bases.map TypeExpr.toTree))]

def EnumMember.toTree (member : EnumMember) : Tree :=
  .plain .enumMemberDeclaration <| member.trivia.trees ++
    member.attributes.map AttributeGroup.toTree ++ .ident member.name :: valueTrees member.value

/-- The trees of what stands in front of a declaration. -/
def Header.trees (header : Header) : List Tree :=
  header.trivia.trees ++ header.attributes.map AttributeGroup.toTree ++
    [Modifier.tree header.modifiers]

/-- The tree of the initializer that calls a constructor of the base type. -/
def baseCallTree (arguments : List Argument) : Tree :=
  .plain .constructorInitializer
    [.punct .colon, .keyword "base", argumentListTree (argumentTrees arguments)]

namespace Declaration

def kind : Declaration → Kind
  | type keyword .. => keyword.kind
  | enumeration .. => .enumDeclaration
  | field .. => .fieldDeclaration
  | property .. => .propertyDeclaration
  | computed .. => .propertyDeclaration
  | indexer .. => .indexerDeclaration
  | method .. => .methodDeclaration
  | constructor .. => .constructorDeclaration
  | operator .. => .operatorDeclaration
  | conversion .. => .conversionOperatorDeclaration

end Declaration

mutual

def Member.toTree : Member → Tree
  | .declare header declaration =>
    .node declaration.kind header.anchor (header.trees ++ declaration.trees)

def memberTrees : List Member → List Tree
  | [] => []
  | member :: rest => member.toTree :: memberTrees rest

/-- The trees of a declaration behind its modifiers. -/
def Declaration.trees : Declaration → List Tree
  | .type keyword name typeParameters bases members =>
    keyword.words.map Tree.keyword ++ .ident name :: typeParameterTrees typeParameters ++
      baseTrees bases ++
      [.plain .memberList (.punct .leftBrace :: memberTrees members ++ [.punct .rightBrace])]
  | .enumeration name members =>
    [.keyword "enum", .ident name,
      .plain .enumMemberList
        (Tree.enclosed .leftBrace .rightBrace (members.map EnumMember.toTree))]
  | .field type name initializer =>
    [type.toTree, .plain .variableDeclarator (.ident name :: valueTrees initializer),
      .punct .semicolon]
  | .property type name accessors initializer =>
    let value := match initializer with
      | some value => [equalsValueTree value.toTree, .punct .semicolon]
      | none => []
    [type.toTree, .ident name, Accessor.listTree accessors] ++ value
  | .computed type name value =>
    [type.toTree, .ident name, arrowTree value, .punct .semicolon]
  | .indexer type parameters accessors =>
    [type.toTree, .keyword "this", Parameter.bracketedTree parameters,
      Accessor.listTree accessors]
  | .method result name typeParameters parameters body =>
    result.toTree :: .ident name :: typeParameterTrees typeParameters ++
      Parameter.listTree parameters :: body.trees
  | .constructor name parameters baseArguments body =>
    [.ident name, Parameter.listTree parameters] ++ (baseArguments.map baseCallTree).toList ++
      body.trees
  | .operator result operator parameters body =>
    [result.toTree, .keyword "operator", .punct operator, Parameter.listTree parameters] ++
      body.trees
  | .conversion implicit target parameters body =>
    [.keyword (if implicit then "implicit" else "explicit"), .keyword "operator", target.toTree,
      Parameter.listTree parameters] ++ body.trees

end

namespace Member

def header : Member → Header
  | declare header _ => header

def declaration : Member → Declaration
  | declare _ declaration => declaration

/-- The member with lines in front of those it has. -/
def prependTrivia (trivia : Trivia) : Member → Member
  | declare header declaration =>
    declare { header with trivia := trivia ++ header.trivia } declaration

/-- The member under a name by which it can be found in a tree. -/
def anchored (anchor : Anchor) : Member → Member
  | declare header declaration => declare { header with anchor := some anchor } declaration

end Member

namespace CompilationUnit

def usingTree (name : String) : Tree :=
  .plain .usingDirective [.keyword "using", (TypeExpr.parse name).toTree, .punct .semicolon]

/-- The tree of a file. The lines in front belong to the namespace, if there is one. -/
def toTree (unit : CompilationUnit) : Tree :=
  let body :=
    if unit.namespaceName.isEmpty then unit.trivia.trees ++ memberTrees unit.members
    else
      [.plain .fileScopedNamespace <| unit.trivia.trees ++
        [.keyword "namespace", (TypeExpr.parse unit.namespaceName).toTree, .punct .semicolon] ++
        memberTrees unit.members]
  .plain .compilationUnit (unit.usings.map usingTree ++ body)

end CompilationUnit

end SourceGen
