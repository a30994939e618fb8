import SourceGen.Syntax.TypeExpr
import SourceGen.Syntax.Literal
import SourceGen.Syntax.Modifier
/-! Expressions and statements, and the trees they are written as. -/

namespace SourceGen

mutual

inductive Expr where
  | ident (name : String)
  | word (keyword : String)
  | generic (name : String) (arguments : List TypeExpr)
  | type (type : TypeExpr)
  | literal (tokens : List Token)
  | member (receiver : Expr) (name : String)
  | genericMember (receiver : Expr) (name : String) (arguments : List TypeExpr)
  | invoke (callee : Expr) (arguments : List Argument)
  | element (receiver : Expr) (arguments : List Argument)
  | typeOf (type : TypeExpr)
  | defaultOf (type : TypeExpr)
  | newImplicit (arguments : List Argument)
  | newObject (type : TypeExpr) (arguments : List Argument)
  | cast (type : TypeExpr) (operand : Expr)
  | parenthesized (inner : Expr)
  | prefixed (operator : Kind) (operand : Expr)
  | postfixed (operand : Expr) (operator : Kind)
  | binary (left : Expr) (operator : Kind) (right : Expr)
  | assign (target : Expr) (operator : Kind) (value : Expr)
  | lambda (modifiers : List Modifier) (parameters : List String) (result : Expr)
  | lambdaBlock (modifiers : List Modifier) (parameters : List String) (body : List Stmt)
  | switch (subject : Expr) (arms : List Arm)
  | isPattern (subject : Expr) (pattern : Pattern)
  | throw (value : Expr)
  | collection (items : List Expr)
  | anchored (number : Nat) (inner : Expr)

inductive Argument where
  | positional (value : Expr)
  | named (name : String) (value : Expr)

/-- A pattern of a switch arm or test. -/
inductive Pattern where
  | constant (value : Expr)
  | discard
  | declaration (type : TypeExpr) (name : String)
  | negated (pattern : Pattern)

/-- One case of a switch expression. -/
inductive Arm where
  | case (pattern : Pattern) (result : Expr)

inductive Stmt where
  | expression (value : Expr)
  | result (value : Expr)
  | leave
  | declare (type : TypeExpr) (name : String) (value : Expr)
  | ifThen (condition : Expr) (body : List Stmt)
  | throw (value : Expr)
  | emptyWithComment (comment : String)
  | block (body : List Stmt)

end

def typeArgumentTree (arguments : List TypeExpr) : Tree :=
  .plain .typeArgumentList (Tree.enclosed .leftAngle .rightAngle (TypeExpr.treesOf arguments))

def genericNameTree (name : String) (arguments : List TypeExpr) : Tree :=
  .plain .genericName [.ident name, typeArgumentTree arguments]

def nameTree (name : String) : Tree :=
  .plain .identifierName [.ident name]

/-- The tree of the parameters of a lambda; a single one stands without parentheses. -/
def lambdaParameterTree : List String → Tree
  | [parameter] => .ident parameter
  | parameters =>
    .plain .parameterList <| Tree.enclosed .leftParen .rightParen <|
      parameters.map fun name => .plain .parameter [.ident name]

/-- The tree of a type or other operand between a keyword's parentheses. -/
def keywordCallTree (kind : Kind) (word : String) (operand : Tree) : Tree :=
  .plain kind [.keyword word, .punct .leftParen, operand, .punct .rightParen]

def argumentListTree (arguments : List Tree) : Tree :=
  .plain .argumentList (Tree.enclosed .leftParen .rightParen arguments)

def blockTree (statements : List Tree) : Tree :=
  .plain .block (.punct .leftBrace :: statements ++ [.punct .rightBrace])

def equalsValueTree (value : Tree) : Tree :=
  .plain .equalsValue [.punct .equal, value]

mutual

def Expr.toTree : Expr → Tree
  | .ident name => nameTree name
  | .word keyword => .plain .identifierName [.keyword keyword]
  | .generic name arguments => genericNameTree name arguments
  | .type type => type.toTree
  | .literal tokens => .plain .literal (tokens.map .leaf)
  | .member receiver name =>
    .plain .memberAccess [receiver.toTree, .punct .dot, nameTree name]
  | .genericMember receiver name arguments =>
    .plain .memberAccess [receiver.toTree, .punct .dot, genericNameTree name arguments]
  | .invoke callee arguments =>
    .plain .invocation [callee.toTree, argumentListTree (argumentTrees arguments)]
  | .element receiver arguments =>
    .plain .elementAccess
      [receiver.toTree,
        .plain .bracketedArgumentList
          (Tree.enclosed .leftBracket .rightBracket (argumentTrees arguments))]
  | .typeOf type => keywordCallTree .typeOf "typeof" type.toTree
  | .defaultOf type => keywordCallTree .defaultOf "default" type.toTree
  | .newImplicit arguments =>
    .plain .objectCreation [.keyword "new", argumentListTree (argumentTrees arguments)]
  | .newObject type arguments =>
    .plain .objectCreation [.keyword "new", type.toTree, argumentListTree (argumentTrees arguments)]
  | .cast type operand =>
    .plain .cast [.punct .leftParen, type.toTree, .punct .rightParen, operand.toTree]
  | .parenthesized inner =>
    .plain .parenthesized [.punct .leftParen, inner.toTree, .punct .rightParen]
  | .prefixed operator operand => .plain .prefixUnary [.punct operator, operand.toTree]
  | .postfixed operand operator => .plain .postfixUnary [operand.toTree, .punct operator]
  | .binary left operator right =>
    .plain .binary [left.toTree, .punct operator, right.toTree]
  | .assign target operator value =>
    .plain .assignment [target.toTree, .punct operator, value.toTree]
  | .lambda modifiers parameters result =>
    .plain .lambda
      (Modifier.trees modifiers ++
        [lambdaParameterTree parameters, .punct .fatArrow, result.toTree])
  | .lambdaBlock modifiers parameters body =>
    .plain .lambda
      (Modifier.trees modifiers ++
        [lambdaParameterTree parameters, .punct .fatArrow, blockTree (statementTrees body)])
  | .switch subject arms =>
    .plain .switchExpression
      [subject.toTree, .keyword "switch",
        .plain .switchArmList (Tree.enclosed .leftBrace .rightBrace (armTrees arms))]
  | .isPattern subject pattern =>
    .plain .isPattern [subject.toTree, .keyword "is", pattern.toTree]
  | .throw value => .plain .throwExpression [.keyword "throw", value.toTree]
  | .collection items =>
    .plain .collectionExpression (Tree.enclosed .leftBracket .rightBracket (expressionTrees items))
  | .anchored number inner => inner.toTree.anchored (.expression number)

def expressionTrees : List Expr → List Tree
  | [] => []
  | value :: rest => value.toTree :: expressionTrees rest

def Argument.toTree : Argument → Tree
  | .positional value => .plain .argument [value.toTree]
  | .named name value => .plain .argument [.ident name, .punct .equal, value.toTree]

def argumentTrees : List Argument → List Tree
  | [] => []
  | argument :: rest => argument.toTree :: argumentTrees rest

def Pattern.toTree : Pattern → Tree
  | .constant value => .plain .pattern [value.toTree]
  | .discard => .plain .pattern [.ident "_"]
  | .declaration type name => .plain .pattern [type.toTree, .ident name]
  | .negated pattern => .plain .pattern [.keyword "not", pattern.toTree]

def armTrees : List Arm → List Tree
  | [] => []
  | .case pattern result :: rest =>
    .plain .switchArm [pattern.toTree, .punct .fatArrow, result.toTree] :: armTrees rest

def Stmt.toTree : Stmt → Tree
  | .expression value => .plain .expressionStatement [value.toTree, .punct .semicolon]
  | .result value =>
    .plain .returnStatement [.keyword "return", value.toTree, .punct .semicolon]
  | .leave => .plain .returnStatement [.keyword "return", .punct .semicolon]
  | .declare type name value =>
    .plain .localDeclarationStatement
      [type.toTree, .plain .variableDeclarator [.ident name, equalsValueTree value.toTree],
        .punct .semicolon]
  | .ifThen condition body =>
    .plain .ifStatement
      [.keyword "if", .punct .leftParen, condition.toTree, .punct .rightParen,
        blockTree (statementTrees body)]
  | .throw value => .plain .throwStatement [.keyword "throw", value.toTree, .punct .semicolon]
  | .emptyWithComment comment =>
    .plain .emptyStatement [.punct .semicolon, .leaf ⟨.lineComment, "// " ++ comment⟩]
  | .block body => blockTree (statementTrees body)

def statementTrees : List Stmt → List Tree
  | [] => []
  | statement :: rest => statement.toTree :: statementTrees rest

end

namespace Expr

/-- An expression on one line. -/
def text (value : Expr) : String :=
  value.toTree.inline

def this : Expr := .word "this"

/-- The field behind a property. -/
def backingField : Expr := .word "field"

/-- The value that is no object. -/
def null : Expr := .literal [.keyword "null"]

/-- The value that its type starts with. -/
def default : Expr := .literal [.keyword "default"]

def bool (value : Bool) : Expr :=
  .literal [.keyword (if value then "true" else "false")]

def string (value : String) : Expr :=
  .literal [⟨.stringLiteral, Literal.string value⟩]

/-- A number spelled as given. -/
def number (text : String) : Expr :=
  .literal [⟨.numericLiteral, text⟩]

/-- A character spelled as given. -/
def char (text : String) : Expr :=
  .literal [⟨.charLiteral, text⟩]

/-- An interpolated text with the given template between its quotes. -/
def interpolated (template : String) : Expr :=
  .literal [⟨.interpolatedString, "$\"" ++ template ++ "\""⟩]

/-- A dotted name. -/
def qualified (name : String) : Expr :=
  .type (.parse name)

/-- A call with plain arguments. -/
def call (callee : Expr) (arguments : List Expr) : Expr :=
  .invoke callee (arguments.map .positional)

/-- The name of a declaration as a text. -/
def nameOf (name : String) : Expr :=
  (ident "nameof").call [ident name]

/-- An operand that is asserted not to be null. -/
def suppressNull (operand : Expr) : Expr :=
  .postfixed operand .bang

/-- A value, or another one in place of null. -/
def coalesce (value other : Expr) : Expr :=
  .binary value .questionQuestion other

def set (target value : Expr) : Expr :=
  .assign target .equal value

def coalesceSet (target value : Expr) : Expr :=
  .assign target .questionQuestionEqual value

/-- A spelled floating point number of the predefined type of the given name. -/
def ofSpelling (type : String) : Literal.FloatSpelling → Expr
  | .literal text => number text
  | .member name => .member (.word type) name

/-- The number of 32 bits with the given bits. -/
def float (bits : Nat) : Expr :=
  ofSpelling "float" (Literal.float .single "F" bits)

/-- The number of 64 bits with the given bits. -/
def double (bits : Nat) : Expr :=
  ofSpelling "double" (Literal.float .double "D" bits)

end Expr

end SourceGen
