/-! Kinds of the tokens and nodes of program trees. -/

namespace SourceGen

/-- The kind of a token or node. Angle brackets that delimit type arguments have kinds of their
own, apart from those of comparisons. -/
inductive Kind where
  | whitespace | lineComment | docComment | directive | identifier | keyword | stringLiteral
  | charLiteral | numericLiteral | interpolatedString | leftBrace | rightBrace | leftParen
  | rightParen | leftBracket | rightBracket | leftAngle | rightAngle | less | greater
  | lessEqual | greaterEqual | semicolon | comma | dot | colon | colonColon | question
  | questionQuestion | questionQuestionEqual | equal | equalEqual | notEqual | fatArrow | plus
  | minus | star | amp | ampAmp | pipePipe | pipe | bang | plusPlus | minusMinus
  | compilationUnit | usingDirective | fileScopedNamespace | namespaceDeclaration
  | classDeclaration | structDeclaration | interfaceDeclaration | recordDeclaration
  | recordStructDeclaration | enumDeclaration | modifiers | typeParameterList | baseList
  | memberList | attributeList | attributeTarget | attribute | fieldDeclaration
  | variableDeclarator | equalsValue | propertyDeclaration | indexerDeclaration
  | methodDeclaration | constructorDeclaration | constructorInitializer | operatorDeclaration
  | conversionOperatorDeclaration | enumMemberList | enumMemberDeclaration | accessorList
  | accessorDeclaration | parameterList | bracketedParameterList | parameter
  | arrowExpressionClause | leadingTrivia | block | expressionStatement | returnStatement
  | localDeclarationStatement | ifStatement | throwStatement | emptyStatement | type
  | genericName | typeArgumentList | identifierName | memberAccess | invocation | argumentList
  | bracketedArgumentList | argument | literal | objectCreation | typeOf | defaultOf | cast
  | parenthesized | prefixUnary | postfixUnary | binary | assignment | lambda
  | switchExpression | switchArmList | switchArm | isPattern | pattern | elementAccess
  | throwExpression | collectionExpression | error
  deriving DecidableEq, Repr

namespace Kind

def name : Kind → String
  | .whitespace => "Whitespace"
  | .lineComment => "LineComment"
  | .docComment => "DocComment"
  | .directive => "Directive"
  | .identifier => "Identifier"
  | .keyword => "Keyword"
  | .stringLiteral => "StringLiteral"
  | .charLiteral => "CharLiteral"
  | .numericLiteral => "NumericLiteral"
  | .interpolatedString => "InterpolatedString"
  | .leftBrace => "LBrace"
  | .rightBrace => "RBrace"
  | .leftParen => "LParen"
  | .rightParen => "RParen"
  | .leftBracket => "LBracket"
  | .rightBracket => "RBracket"
  | .leftAngle => "LAngle"
  | .rightAngle => "RAngle"
  | .less => "Lt"
  | .greater => "Gt"
  | .lessEqual => "LtEq"
  | .greaterEqual => "GtEq"
  | .semicolon => "Semicolon"
  | .comma => "Comma"
  | .dot => "Dot"
  | .colon => "Colon"
  | .colonColon => "ColonColon"
  | .question => "Question"
  | .questionQuestion => "QuestionQuestion"
  | .questionQuestionEqual => "QuestionQuestionEq"
  | .equal => "Eq"
  | .equalEqual => "EqEq"
  | .notEqual => "NotEq"
  | .fatArrow => "FatArrow"
  | .plus => "Plus"
  | .minus => "Minus"
  | .star => "Star"
  | .amp => "Amp"
  | .ampAmp => "AmpAmp"
  | .pipePipe => "PipePipe"
  | .pipe => "Pipe"
  | .bang => "Bang"
  | .plusPlus => "PlusPlus"
  | .minusMinus => "MinusMinus"
  | .compilationUnit => "CompilationUnit"
  | .usingDirective => "UsingDirective"
  | .fileScopedNamespace => "FileScopedNamespace"
  | .namespaceDeclaration => "NamespaceDecl"
  | .classDeclaration => "ClassDecl"
  | .structDeclaration => "StructDecl"
  | .interfaceDeclaration => "InterfaceDecl"
  | .recordDeclaration => "RecordDecl"
  | .recordStructDeclaration => "RecordStructDecl"
  | .enumDeclaration => "EnumDecl"
  | .modifiers => "Modifiers"
  | .typeParameterList => "TypeParameterList"
  | .baseList => "BaseList"
  | .memberList => "MemberList"
  | .attributeList => "AttributeList"
  | .attributeTarget => "AttributeTarget"
  | .attribute => "Attribute"
  | .fieldDeclaration => "FieldDecl"
  | .variableDeclarator => "VariableDeclarator"
  | .equalsValue => "EqualsValue"
  | .propertyDeclaration => "PropertyDecl"
  | .indexerDeclaration => "IndexerDecl"
  | .methodDeclaration => "MethodDecl"
  | .constructorDeclaration => "ConstructorDecl"
  | .constructorInitializer => "ConstructorInitializer"
  | .operatorDeclaration => "OperatorDecl"
  | .conversionOperatorDeclaration => "ConversionOperatorDecl"
  | .enumMemberList => "EnumMemberList"
  | .enumMemberDeclaration => "EnumMemberDecl"
  | .accessorList => "AccessorList"
  | .accessorDeclaration => "AccessorDecl"
  | .parameterList => "ParameterList"
  | .bracketedParameterList => "BracketedParameterList"
  | .parameter => "Parameter"
  | .arrowExpressionClause => "ArrowExpressionClause"
  | .leadingTrivia => "LeadingTrivia"
  | .block => "Block"
  | .expressionStatement => "ExpressionStatement"
  | .returnStatement => "ReturnStatement"
  | .localDeclarationStatement => "LocalDeclarationStatement"
  | .ifStatement => "IfStatement"
  | .throwStatement => "ThrowStatement"
  | .emptyStatement => "EmptyStatement"
  | .type => "Type"
  | .genericName => "GenericName"
  | .typeArgumentList => "TypeArgumentList"
  | .identifierName => "IdentifierName"
  | .memberAccess => "MemberAccess"
  | .invocation => "Invocation"
  | .argumentList => "ArgumentList"
  | .bracketedArgumentList => "BracketedArgumentList"
  | .argument => "Argument"
  | .literal => "Literal"
  | .objectCreation => "ObjectCreation"
  | .typeOf => "TypeOf"
  | .defaultOf => "DefaultExpr"
  | .cast => "Cast"
  | .parenthesized => "Parenthesized"
  | .prefixUnary => "PrefixUnary"
  | .postfixUnary => "PostfixUnary"
  | .binary => "Binary"
  | .assignment => "Assignment"
  | .lambda => "Lambda"
  | .switchExpression => "SwitchExpression"
  | .switchArmList => "SwitchArmList"
  | .switchArm => "SwitchArm"
  | .isPattern => "IsPattern"
  | .pattern => "Pattern"
  | .elementAccess => "ElementAccess"
  | .throwExpression => "ThrowExpression"
  | .collectionExpression => "CollectionExpression"
  | .error => "Error"

def all : List Kind :=
  [.whitespace, .lineComment, .docComment, .directive, .identifier, .keyword, .stringLiteral,
   .charLiteral, .numericLiteral, .interpolatedString, .leftBrace, .rightBrace, .leftParen,
   .rightParen, .leftBracket, .rightBracket, .leftAngle, .rightAngle, .less, .greater,
   .lessEqual, .greaterEqual, .semicolon, .comma, .dot, .colon, .colonColon, .question,
   .questionQuestion, .questionQuestionEqual, .equal, .equalEqual, .notEqual, .fatArrow, .plus,
   .minus, .star, .amp, .ampAmp, .pipePipe, .pipe, .bang, .plusPlus, .minusMinus,
   .compilationUnit, .usingDirective, .fileScopedNamespace, .namespaceDeclaration,
   .classDeclaration, .structDeclaration, .interfaceDeclaration, .recordDeclaration,
   .recordStructDeclaration, .enumDeclaration, .modifiers, .typeParameterList, .baseList,
   .memberList, .attributeList, .attributeTarget, .attribute, .fieldDeclaration,
   .variableDeclarator, .equalsValue, .propertyDeclaration, .indexerDeclaration,
   .methodDeclaration, .constructorDeclaration, .constructorInitializer, .operatorDeclaration,
   .conversionOperatorDeclaration, .enumMemberList, .enumMemberDeclaration, .accessorList,
   .accessorDeclaration, .parameterList, .bracketedParameterList, .parameter,
   .arrowExpressionClause, .leadingTrivia, .block, .expressionStatement, .returnStatement,
   .localDeclarationStatement, .ifStatement, .throwStatement, .emptyStatement, .type,
   .genericName, .typeArgumentList, .identifierName, .memberAccess, .invocation, .argumentList,
   .bracketedArgumentList, .argument, .literal, .objectCreation, .typeOf, .defaultOf, .cast,
   .parenthesized, .prefixUnary, .postfixUnary, .binary, .assignment, .lambda,
   .switchExpression, .switchArmList, .switchArm, .isPattern, .pattern, .elementAccess,
   .throwExpression, .collectionExpression, .error]

def ofName? (text : String) : Option Kind :=
  all.find? (·.name = text)

def number (kind : Kind) : Nat :=
  kind.ctorIdx

/-- The fixed spelling of a punctuation kind; no text for other kinds. -/
def spelling : Kind → String
  | .leftAngle | .less => "<"
  | .rightAngle | .greater => ">"
  | .leftBrace => "\x7b"
  | .rightBrace => "\x7d"
  | .leftParen => "("
  | .rightParen => ")"
  | .leftBracket => "["
  | .rightBracket => "]"
  | .lessEqual => "<="
  | .greaterEqual => ">="
  | .semicolon => ";"
  | .comma => ","
  | .dot => "."
  | .colon => ":"
  | .colonColon => "::"
  | .question => "?"
  | .questionQuestion => "??"
  | .questionQuestionEqual => "??="
  | .equal => "="
  | .equalEqual => "=="
  | .notEqual => "!="
  | .fatArrow => "=>"
  | .plus => "+"
  | .minus => "-"
  | .star => "*"
  | .amp => "&"
  | .ampAmp => "&&"
  | .pipePipe => "||"
  | .pipe => "|"
  | .bang => "!"
  | .plusPlus => "++"
  | .minusMinus => "--"
  | _ => ""

/-- Blanks, comments and directives. -/
def isTrivia : Kind → Bool
  | .whitespace | .lineComment | .docComment | .directive => true
  | _ => false

/-- Class, struct, interface, record and enum declarations. -/
def isTypeDeclaration : Kind → Bool
  | .classDeclaration | .structDeclaration | .interfaceDeclaration | .recordDeclaration
  | .recordStructDeclaration | .enumDeclaration => true
  | _ => false

/-- Declarations that can carry attribute lists. -/
def isMemberDeclaration : Kind → Bool
  | .fieldDeclaration | .propertyDeclaration | .indexerDeclaration | .methodDeclaration
  | .constructorDeclaration | .operatorDeclaration | .conversionOperatorDeclaration
  | .enumMemberDeclaration => true
  | kind => kind.isTypeDeclaration

/-- Statements other than blocks. -/
def isStatement : Kind → Bool
  | .expressionStatement | .returnStatement | .localDeclarationStatement | .ifStatement
  | .throwStatement | .emptyStatement => true
  | _ => false

end Kind

end SourceGen
