import SourceGen.Syntax.Member

/-! Parts of a program in which nothing is declared: types, expressions, statements, attributes, and
whatever else stands inside a declaration that is not a declaration itself. -/

namespace SourceGen

/-- Whether a node of the kind declares what a symbol can be bound to. -/
def Kind.isDeclaring (kind : Kind) : Bool :=
  kind.isMemberDeclaration && kind != .enumMemberDeclaration

/-- Whether a name is that of a declaration. -/
def Anchor.isDeclaration : Anchor → Bool
  | declaration _ => true
  | expression _ => false

namespace Tree

mutual

/-- Whether a tree has neither declarations nor names of declarations. -/
def isQuiet : Tree → Bool
  | leaf _ => true
  | node kind anchor children =>
    !kind.isDeclaring && !anchor.any Anchor.isDeclaration && areQuiet children

/-- Whether several trees have neither declarations nor names of declarations. -/
def areQuiet : List Tree → Bool
  | [] => true
  | tree :: trees => tree.isQuiet && areQuiet trees

end

theorem areQuiet_eq_all (trees : List Tree) : areQuiet trees = trees.all isQuiet := by
  induction trees with
  | nil => simp [areQuiet]
  | cons tree trees ih => simp [areQuiet, ih]

@[simp] theorem isQuiet_leaf (token : Token) : (leaf token).isQuiet = true := by
  simp [isQuiet]

@[simp] theorem isQuiet_plain (kind : Kind) (children : List Tree) :
    (plain kind children).isQuiet = (!kind.isDeclaring && children.all isQuiet) := by
  simp [plain, isQuiet, areQuiet_eq_all]

@[simp] theorem isQuiet_punct (kind : Kind) : (punct kind).isQuiet = true := by
  simp [punct]

@[simp] theorem isQuiet_ident (text : String) : (ident text).isQuiet = true := by
  simp [ident]

@[simp] theorem isQuiet_keyword (text : String) : (keyword text).isQuiet = true := by
  simp [keyword]

@[simp] theorem all_quiet_separated (trees : List Tree) :
    (separated trees).all isQuiet = trees.all isQuiet := by
  induction trees with
  | nil => rfl
  | cons tree trees ih =>
    cases trees with
    | nil => rfl
    | cons next rest => simp_all [separated]

@[simp] theorem all_quiet_enclosed (opening closing : Kind) (trees : List Tree) :
    (enclosed opening closing trees).all isQuiet = trees.all isQuiet := by
  simp [enclosed]

theorem isQuiet_anchored {tree : Tree} (h : tree.isQuiet = true) (number : Nat) :
    (tree.anchored (.expression number)).isQuiet = true := by
  cases tree with
  | leaf token => simp [anchored]
  | node kind anchor children => simp_all [anchored, isQuiet, Anchor.isDeclaration]

end Tree

mutual

theorem TypeExpr.quiet_parts : (type : TypeExpr) → type.parts.all Tree.isQuiet = true
  | .tokens list => by simp [TypeExpr.parts]
  | .generic name arguments => by simp [TypeExpr.parts, TypeExpr.quiet_treesOf arguments]
  | .suffixed type suffix => by simp [TypeExpr.parts, TypeExpr.quiet_parts type]

theorem TypeExpr.quiet_treesOf :
    (types : List TypeExpr) → (TypeExpr.treesOf types).all Tree.isQuiet = true
  | [] => rfl
  | type :: types => by
    simp [TypeExpr.treesOf, TypeExpr.quiet_parts type, TypeExpr.quiet_treesOf types,
      Kind.isDeclaring, Kind.isMemberDeclaration, Kind.isTypeDeclaration]

end

theorem TypeExpr.quiet (type : TypeExpr) : type.toTree.isQuiet = true := by
  simp [toTree, quiet_parts type, Kind.isDeclaring, Kind.isMemberDeclaration,
    Kind.isTypeDeclaration]

theorem Modifier.quiet (modifiers : List Modifier) : (tree modifiers).isQuiet = true := by
  simp [tree, Kind.isDeclaring, Kind.isMemberDeclaration, Kind.isTypeDeclaration]

theorem Modifier.quiet_trees (modifiers : List Modifier) :
    (trees modifiers).all Tree.isQuiet = true := by
  cases modifiers with
  | nil => rfl
  | cons modifier rest => simp [trees, Modifier.quiet]

section Parts

variable {trees : List Tree} (h : trees.all Tree.isQuiet = true)
include h

private theorem quiet_argumentList : (argumentListTree trees).isQuiet = true := by
  simp [argumentListTree, h, Kind.isDeclaring, Kind.isMemberDeclaration, Kind.isTypeDeclaration]

private theorem quiet_block : (blockTree trees).isQuiet = true := by
  simp [blockTree, h, Kind.isDeclaring, Kind.isMemberDeclaration, Kind.isTypeDeclaration]

end Parts

private theorem quiet_name (name : String) : (nameTree name).isQuiet = true := by
  simp [nameTree, Kind.isDeclaring, Kind.isMemberDeclaration, Kind.isTypeDeclaration]

private theorem quiet_genericName (name : String) (arguments : List TypeExpr) :
    (genericNameTree name arguments).isQuiet = true := by
  simp [genericNameTree, typeArgumentTree, TypeExpr.quiet_treesOf, Kind.isDeclaring,
    Kind.isMemberDeclaration, Kind.isTypeDeclaration]

private theorem quiet_lambdaParameter (parameters : List String) :
    (lambdaParameterTree parameters).isQuiet = true := by
  unfold lambdaParameterTree
  split
  · simp
  · simp [Kind.isDeclaring, Kind.isMemberDeclaration, Kind.isTypeDeclaration]

private theorem quiet_equalsValue {tree : Tree} (h : tree.isQuiet = true) :
    (equalsValueTree tree).isQuiet = true := by
  simp [equalsValueTree, h, Kind.isDeclaring, Kind.isMemberDeclaration, Kind.isTypeDeclaration]

mutual

theorem Expr.quiet : (value : Expr) → value.toTree.isQuiet = true
  | .ident name => quiet_name name
  | .word keyword => by simp [Expr.toTree]; decide
  | .generic name arguments => quiet_genericName name arguments
  | .type type => type.quiet
  | .literal tokens => by simp [Expr.toTree]; decide
  | .member receiver name => by simp [Expr.toTree, Expr.quiet receiver, quiet_name]; decide
  | .genericMember receiver name arguments => by
    simp [Expr.toTree, Expr.quiet receiver, quiet_genericName]; decide
  | .invoke callee arguments => by
    simp [Expr.toTree, Expr.quiet callee, quiet_argumentList (quiet_arguments arguments)]; decide
  | .element receiver arguments => by
    simp [Expr.toTree, Expr.quiet receiver, quiet_arguments arguments]; decide
  | .typeOf type => by simp [Expr.toTree, keywordCallTree, type.quiet]; decide
  | .defaultOf type => by simp [Expr.toTree, keywordCallTree, type.quiet]; decide
  | .newImplicit arguments => by
    simp [Expr.toTree, quiet_argumentList (quiet_arguments arguments)]; decide
  | .newObject type arguments => by
    simp [Expr.toTree, type.quiet, quiet_argumentList (quiet_arguments arguments)]; decide
  | .cast type operand => by simp [Expr.toTree, type.quiet, Expr.quiet operand]; decide
  | .parenthesized inner => by simp [Expr.toTree, Expr.quiet inner]; decide
  | .prefixed operator operand => by simp [Expr.toTree, Expr.quiet operand]; decide
  | .postfixed operand operator => by simp [Expr.toTree, Expr.quiet operand]; decide
  | .binary left operator right => by
    simp [Expr.toTree, Expr.quiet left, Expr.quiet right]; decide
  | .assign target operator value => by
    simp [Expr.toTree, Expr.quiet target, Expr.quiet value]; decide
  | .lambda modifiers parameters result => by
    simp [Expr.toTree, Modifier.quiet_trees, quiet_lambdaParameter, Expr.quiet result]; decide
  | .lambdaBlock modifiers parameters body => by
    simp [Expr.toTree, Modifier.quiet_trees, quiet_lambdaParameter,
      quiet_block (quiet_statements body)]; decide
  | .switch subject arms => by
    simp [Expr.toTree, Expr.quiet subject, quiet_arms arms]; decide
  | .isPattern subject pattern => by
    simp [Expr.toTree, Expr.quiet subject, pattern.quiet]; decide
  | .throw value => by simp [Expr.toTree, Expr.quiet value]; decide
  | .collection items => by simp [Expr.toTree, quiet_expressions items]; decide
  | .anchored number inner => Tree.isQuiet_anchored (Expr.quiet inner) number

theorem quiet_expressions :
    (items : List Expr) → (expressionTrees items).all Tree.isQuiet = true
  | [] => rfl
  | value :: rest => by simp [expressionTrees, value.quiet, quiet_expressions rest]

theorem Argument.quiet : (argument : Argument) → argument.toTree.isQuiet = true
  | .positional value => by simp [Argument.toTree, value.quiet]; decide
  | .named name value => by simp [Argument.toTree, value.quiet]; decide

theorem quiet_arguments :
    (arguments : List Argument) → (argumentTrees arguments).all Tree.isQuiet = true
  | [] => rfl
  | argument :: rest => by simp [argumentTrees, argument.quiet, quiet_arguments rest]

theorem Pattern.quiet : (pattern : Pattern) → pattern.toTree.isQuiet = true
  | .constant value => by simp [Pattern.toTree, value.quiet]; decide
  | .discard => by simp [Pattern.toTree]; decide
  | .declaration type name => by simp [Pattern.toTree, type.quiet]; decide
  | .negated pattern => by simp [Pattern.toTree, pattern.quiet]; decide

theorem quiet_arms : (arms : List Arm) → (armTrees arms).all Tree.isQuiet = true
  | [] => rfl
  | .case pattern result :: rest => by
    simp [armTrees, pattern.quiet, result.quiet, quiet_arms rest]; decide

theorem Stmt.quiet : (statement : Stmt) → statement.toTree.isQuiet = true
  | .expression value => by simp [Stmt.toTree, value.quiet]; decide
  | .result value => by simp [Stmt.toTree, value.quiet]; decide
  | .leave => by simp [Stmt.toTree]; decide
  | .declare type name value => by
    simp [Stmt.toTree, type.quiet, quiet_equalsValue value.quiet]; decide
  | .ifThen condition body => by
    simp [Stmt.toTree, condition.quiet, quiet_block (quiet_statements body)]; decide
  | .throw value => by simp [Stmt.toTree, value.quiet]; decide
  | .emptyWithComment comment => by simp [Stmt.toTree]; decide
  | .block body => quiet_block (quiet_statements body)

theorem quiet_statements :
    (statements : List Stmt) → (statementTrees statements).all Tree.isQuiet = true
  | [] => rfl
  | statement :: rest => by simp [statementTrees, statement.quiet, quiet_statements rest]

end

theorem AttributeUse.quiet (use : AttributeUse) : use.toTree.isQuiet = true := by
  cases h : use.arguments with
  | none => simp [toTree, h, TypeExpr.quiet]; decide
  | some arguments =>
    simp [toTree, h, TypeExpr.quiet, quiet_argumentList (quiet_arguments arguments)]; decide

theorem AttributeGroup.quiet (group : AttributeGroup) : group.toTree.isQuiet = true := by
  have hu : (group.attributes.map AttributeUse.toTree).all Tree.isQuiet = true := by
    simp [AttributeUse.quiet]
  cases h : group.target with
  | none => simp [toTree, h, hu]; decide
  | some word => simp [toTree, h, hu]; decide

theorem quiet_values (value : Option Expr) : (valueTrees value).all Tree.isQuiet = true := by
  cases value with
  | none => rfl
  | some value => simp [valueTrees, quiet_equalsValue value.quiet]

theorem Body.quiet (body : Body) : body.trees.all Tree.isQuiet = true := by
  cases body with
  | block statements => simp [trees, quiet_block (quiet_statements statements)]
  | expression value => simp [trees, arrowTree, value.quiet]; decide
  | absent => simp [trees]

theorem Parameter.quiet (parameter : Parameter) : parameter.toTree.isQuiet = true := by
  simp [toTree, Modifier.quiet_trees, TypeExpr.quiet, quiet_values]; decide

theorem Parameter.quiet_list (parameters : List Parameter) :
    (listTree parameters).isQuiet = true := by
  simp [listTree, Parameter.quiet]; decide

theorem Parameter.quiet_bracketed (parameters : List Parameter) :
    (bracketedTree parameters).isQuiet = true := by
  simp [bracketedTree, Parameter.quiet]; decide

theorem Accessor.quiet (accessor : Accessor) : accessor.toTree.isQuiet = true := by
  simp [toTree, Modifier.quiet_trees, Body.quiet]; decide

theorem Accessor.quiet_list (accessors : List Accessor) : (listTree accessors).isQuiet = true := by
  simp [listTree, Accessor.quiet]; decide

theorem Trivia.quiet (trivia : Trivia) : trivia.trees.all Tree.isQuiet = true := by
  unfold trees
  split
  · rfl
  · simp [toTree]; decide

theorem EnumMember.quiet (member : EnumMember) : member.toTree.isQuiet = true := by
  simp [toTree, Trivia.quiet, AttributeGroup.quiet, quiet_values]; decide

theorem Header.quiet (header : Header) : header.trees.all Tree.isQuiet = true := by
  simp [trees, Trivia.quiet, AttributeGroup.quiet, Modifier.quiet]

theorem quiet_typeParameters (names : List String) :
    (typeParameterTrees names).all Tree.isQuiet = true := by
  unfold typeParameterTrees
  split
  · rfl
  · simp; decide

theorem quiet_bases (bases : List TypeExpr) : (baseTrees bases).all Tree.isQuiet = true := by
  unfold baseTrees
  split
  · rfl
  · simp [TypeExpr.quiet]; decide

theorem quiet_baseCall (arguments : List Argument) : (baseCallTree arguments).isQuiet = true := by
  simp [baseCallTree, quiet_argumentList (quiet_arguments arguments)]; decide

namespace Declaration

/-- The trees of a declaration in front of the members that it has, if it is one of a type. -/
def front : Declaration → List Tree
  | .type keyword name typeParameters bases _ =>
    keyword.words.map Tree.keyword ++ .ident name :: typeParameterTrees typeParameters ++
      baseTrees bases
  | declaration => declaration.trees

theorem quiet_front (declaration : Declaration) : declaration.front.all Tree.isQuiet = true := by
  cases declaration with
  | type keyword name typeParameters bases members =>
    simp [front, quiet_typeParameters, quiet_bases]
  | enumeration name members =>
    simp [front, trees, EnumMember.quiet]; decide
  | field type name initializer =>
    simp [front, trees, TypeExpr.quiet, quiet_values]; decide
  | property type name accessors initializer =>
    cases initializer <;>
      simp [front, trees, TypeExpr.quiet, Accessor.quiet_list, quiet_equalsValue, Expr.quiet]
  | computed type name value =>
    simp [front, trees, arrowTree, TypeExpr.quiet, Expr.quiet]; decide
  | indexer type parameters accessors =>
    simp [front, trees, TypeExpr.quiet, Parameter.quiet_bracketed, Accessor.quiet_list]
  | method result name typeParameters parameters body =>
    simp [front, trees, TypeExpr.quiet, quiet_typeParameters, Parameter.quiet_list, Body.quiet]
  | constructor name parameters baseArguments body =>
    cases baseArguments <;>
      simp [front, trees, Parameter.quiet_list, quiet_baseCall, Body.quiet]
  | operator result operator parameters body =>
    simp [front, trees, TypeExpr.quiet, Parameter.quiet_list, Body.quiet]
  | conversion implicit target parameters body =>
    simp [front, trees, TypeExpr.quiet, Parameter.quiet_list, Body.quiet]

end Declaration

end SourceGen
