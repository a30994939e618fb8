import SourceGen.Proofs.Syntax.Outline

/-! The blocks of a program. In every tree that a part of a program is written as, a block starts with
an opening brace and ends with a closing one, and no other brace stands right under it. -/

namespace SourceGen

/-- Kinds of nodes that are blocks, whatever stands in them. -/
def Kind.isBlock : Kind → Bool
  | .block | .memberList | .switchArmList | .enumMemberList => true
  | _ => false

/-- Kinds of nodes that are never blocks. -/
def Kind.isFlat (kind : Kind) : Bool :=
  !kind.isBlock && kind != .accessorList

/-- Whether a token of the kind is a brace. -/
def Kind.isBrace (kind : Kind) : Bool :=
  kind == .leftBrace || kind == .rightBrace

namespace Tree

/-- Whether one of some accessors has a body. -/
def anyBody (accessors : List Tree) : Bool :=
  accessors.any fun accessor => accessor.children.any isAccessorBody

/-- Whether a node is a block: a list of statements, members, arms or enumeration members, or a list
of accessors one of which has a body. -/
def isBlock (kind : Kind) (children : List Tree) : Bool :=
  kind.isBlock || (kind == .accessorList && anyBody children)

/-- Trees in which every block has its braces. -/
inductive IsBraced : Tree → Prop
  | leaf (token : Token) : IsBraced (leaf token)
  | flat {kind : Kind} {anchor : Option Anchor} {children : List Tree}
      (hflat : isBlock kind children = false) (h : ∀ child ∈ children, child.IsBraced) :
      IsBraced (node kind anchor children)
  | block {kind : Kind} {anchor : Option Anchor} {inner : List Tree}
      (hblock : isBlock kind (punct .leftBrace :: (inner ++ [punct .rightBrace])) = true)
      (hinner : ∀ child ∈ inner, child.kind.isBrace = false) (h : ∀ child ∈ inner, child.IsBraced) :
      IsBraced (node kind anchor (punct .leftBrace :: (inner ++ [punct .rightBrace])))

/-- Whether all of some trees have the braces of their blocks. -/
def AreBraced (trees : List Tree) : Prop :=
  ∀ tree ∈ trees, tree.IsBraced

end Tree

/-- The trees that programs and their parts are written as. -/
inductive Tree.IsWritten : Tree → Prop
  | type (type : TypeExpr) : IsWritten type.toTree
  | expression (value : Expr) : IsWritten value.toTree
  | argument (argument : Argument) : IsWritten argument.toTree
  | pattern (pattern : Pattern) : IsWritten pattern.toTree
  | arm (arm : Arm) {tree : Tree} (h : armTrees [arm] = [tree]) : IsWritten tree
  | statement (statement : Stmt) : IsWritten statement.toTree
  | attributeUse (use : AttributeUse) : IsWritten use.toTree
  | attributeGroup (group : AttributeGroup) : IsWritten group.toTree
  | parameter (parameter : Parameter) : IsWritten parameter.toTree
  | accessor (accessor : Accessor) : IsWritten accessor.toTree
  | enumMember (member : EnumMember) : IsWritten member.toTree
  | lines (lines : Trivia) : IsWritten lines.toTree
  | member (member : Member) : IsWritten member.toTree
  | unit (unit : CompilationUnit) : IsWritten unit.toTree

section Trees

namespace Tree

theorem isBlock_of_isFlat {kind : Kind} (h : kind.isFlat = true) (children : List Tree) :
    isBlock kind children = false := by
  simp_all [Kind.isFlat, isBlock]

@[simp] theorem areBraced_nil : AreBraced [] := by
  simp [AreBraced]

@[simp] theorem areBraced_cons (tree : Tree) (trees : List Tree) :
    AreBraced (tree :: trees) ↔ tree.IsBraced ∧ AreBraced trees :=
  List.forall_mem_cons

@[simp] theorem areBraced_append (trees others : List Tree) :
    AreBraced (trees ++ others) ↔ AreBraced trees ∧ AreBraced others :=
  List.forall_mem_append

@[simp] theorem isBraced_leaf (token : Token) : (Tree.leaf token).IsBraced :=
  .leaf token

@[simp] theorem isBraced_punct (kind : Kind) : (punct kind).IsBraced :=
  .leaf _

@[simp] theorem isBraced_ident (text : String) : (ident text).IsBraced :=
  .leaf _

@[simp] theorem isBraced_keyword (word : String) : (keyword word).IsBraced :=
  .leaf _

theorem isBraced_plain {kind : Kind} (h : kind.isFlat = true) {children : List Tree}
    (hchildren : AreBraced children) : (plain kind children).IsBraced :=
  .flat (isBlock_of_isFlat h children) hchildren

@[simp] theorem areBraced_leaves (tokens : List Token) : AreBraced (tokens.map Tree.leaf) :=
  List.forall_mem_map.mpr fun token _ => .leaf token

@[simp] theorem areBraced_keywords (words : List String) : AreBraced (words.map keyword) :=
  List.forall_mem_map.mpr fun _ _ => .leaf _

theorem areBraced_map {α : Type} {f : α → Tree} (h : ∀ item, (f item).IsBraced) (items : List α) :
    AreBraced (items.map f) :=
  List.forall_mem_map.mpr fun item _ => h item

theorem forall_separated (p : Tree → Prop) (hcomma : p (punct .comma)) {trees : List Tree}
    (h : ∀ tree ∈ trees, p tree) : ∀ tree ∈ separated trees, p tree := by
  induction trees with
  | nil => exact h
  | cons tree trees ih =>
    obtain ⟨htree, htrees⟩ := List.forall_mem_cons.mp h
    cases trees with
    | nil => exact h
    | cons next rest =>
      exact List.forall_mem_cons.mpr ⟨htree, List.forall_mem_cons.mpr ⟨hcomma, ih htrees⟩⟩

theorem areBraced_separated {trees : List Tree} (h : AreBraced trees) :
    AreBraced (separated trees) :=
  forall_separated IsBraced (.leaf _) h

theorem areBraced_enclosed (opening closing : Kind) {trees : List Tree} (h : AreBraced trees) :
    AreBraced (enclosed opening closing trees) := by
  simp [enclosed, areBraced_separated h]

/-- A block with trees between its braces. -/
theorem isBraced_block {kind : Kind} (hkind : kind.isBlock = true) {inner : List Tree}
    (hinner : ∀ child ∈ inner, child.kind.isBrace = false) (h : AreBraced inner) :
    (plain kind (punct .leftBrace :: (inner ++ [punct .rightBrace]))).IsBraced :=
  .block (by simp [isBlock, hkind]) hinner h

/-- A block with commas between the trees in its braces. -/
theorem isBraced_enclosed {kind : Kind} (hkind : kind.isBlock = true) {trees : List Tree}
    (htrees : ∀ tree ∈ trees, tree.kind.isBrace = false) (h : AreBraced trees) :
    (plain kind (enclosed .leftBrace .rightBrace trees)).IsBraced := by
  have hkinds : ∀ tree ∈ separated trees, tree.kind.isBrace = false :=
    forall_separated (fun tree => tree.kind.isBrace = false) rfl htrees
  exact isBraced_block hkind hkinds (areBraced_separated h)

theorem isBraced_anchored {tree : Tree} (h : tree.IsBraced) (anchor : Anchor) :
    (tree.anchored anchor).IsBraced := by
  cases h with
  | leaf token => exact .leaf token
  | flat hflat h => exact .flat hflat h
  | block hblock hinner h => exact .block hblock hinner h

end Tree

end Trees

mutual

theorem TypeExpr.braced_parts : (type : TypeExpr) → Tree.AreBraced type.parts
  | .tokens list => by simp [TypeExpr.parts]
  | .generic name arguments => by
    simp [TypeExpr.parts, Tree.areBraced_enclosed _ _ (TypeExpr.braced_treesOf arguments)]
  | .suffixed type suffix => by
    simp [TypeExpr.parts, TypeExpr.braced_parts type, Tree.areBraced_map Tree.isBraced_punct]

theorem TypeExpr.braced_treesOf :
    (types : List TypeExpr) → Tree.AreBraced (TypeExpr.treesOf types)
  | [] => Tree.areBraced_nil
  | type :: types => by
    have htype : (Tree.plain .type type.parts).IsBraced :=
      Tree.isBraced_plain rfl (TypeExpr.braced_parts type)
    simp [TypeExpr.treesOf, htype, TypeExpr.braced_treesOf types]

end

theorem TypeExpr.braced (type : TypeExpr) : type.toTree.IsBraced :=
  Tree.isBraced_plain rfl type.braced_parts

theorem Modifier.braced (modifiers : List Modifier) : (tree modifiers).IsBraced :=
  Tree.isBraced_plain rfl (Tree.areBraced_map (fun _ => .leaf _) modifiers)

theorem Modifier.braced_trees (modifiers : List Modifier) : Tree.AreBraced (trees modifiers) := by
  unfold trees
  split
  · exact Tree.areBraced_nil
  · simp [Modifier.braced]

section Parts

variable {trees : List Tree} (h : Tree.AreBraced trees)
include h

private theorem braced_argumentList : (argumentListTree trees).IsBraced :=
  Tree.isBraced_plain rfl (Tree.areBraced_enclosed _ _ h)

private theorem braced_block (hkinds : ∀ tree ∈ trees, tree.kind.isBrace = false) :
    (blockTree trees).IsBraced :=
  Tree.isBraced_block rfl hkinds h

end Parts

private theorem braced_name (name : String) : (nameTree name).IsBraced :=
  Tree.isBraced_plain rfl (by simp)

private theorem braced_genericName (name : String) (arguments : List TypeExpr) :
    (genericNameTree name arguments).IsBraced := by
  have harguments : (typeArgumentTree arguments).IsBraced :=
    Tree.isBraced_plain rfl (Tree.areBraced_enclosed _ _ (TypeExpr.braced_treesOf arguments))
  exact Tree.isBraced_plain rfl (by simp [harguments])

private theorem braced_lambdaParameter (parameters : List String) :
    (lambdaParameterTree parameters).IsBraced := by
  unfold lambdaParameterTree
  split
  · exact .leaf _
  · exact Tree.isBraced_plain rfl <| Tree.areBraced_enclosed _ _ <|
      Tree.areBraced_map (fun _ => Tree.isBraced_plain rfl (by simp)) _

private theorem braced_equalsValue {tree : Tree} (h : tree.IsBraced) :
    (equalsValueTree tree).IsBraced :=
  Tree.isBraced_plain rfl (by simp [h])

private theorem braced_keywordCall {kind : Kind} (hkind : kind.isFlat = true) (word : String)
    {operand : Tree} (h : operand.IsBraced) : (keywordCallTree kind word operand).IsBraced :=
  Tree.isBraced_plain hkind (by simp [h])

/-- No statement is a brace by itself. -/
private theorem kind_statementTrees (statements : List Stmt) :
    ∀ tree ∈ statementTrees statements, tree.kind.isBrace = false := by
  induction statements with
  | nil => simp [statementTrees]
  | cons statement rest ih =>
    rw [statementTrees]
    refine List.forall_mem_cons.mpr ⟨?_, ih⟩
    cases statement <;> rfl

private theorem kind_armTrees (arms : List Arm) :
    ∀ tree ∈ armTrees arms, tree.kind.isBrace = false := by
  induction arms with
  | nil => simp [armTrees]
  | cons arm rest ih =>
    obtain ⟨pattern, result⟩ := arm
    rw [armTrees]
    exact List.forall_mem_cons.mpr ⟨rfl, ih⟩

mutual

theorem Expr.braced : (value : Expr) → value.toTree.IsBraced
  | .ident name => braced_name name
  | .word keyword => Tree.isBraced_plain rfl (by simp)
  | .generic name arguments => braced_genericName name arguments
  | .type type => type.braced
  | .literal tokens => Tree.isBraced_plain rfl (Tree.areBraced_leaves tokens)
  | .member receiver name =>
    Tree.isBraced_plain rfl (by simp [receiver.braced, braced_name])
  | .genericMember receiver name arguments =>
    Tree.isBraced_plain rfl (by simp [receiver.braced, braced_genericName])
  | .invoke callee arguments =>
    Tree.isBraced_plain rfl
      (by simp [callee.braced, braced_argumentList (braced_arguments arguments)])
  | .element receiver arguments => by
    have hlist : (Tree.plain .bracketedArgumentList
        (Tree.enclosed .leftBracket .rightBracket (argumentTrees arguments))).IsBraced :=
      Tree.isBraced_plain rfl (Tree.areBraced_enclosed _ _ (braced_arguments arguments))
    exact Tree.isBraced_plain rfl (by simp [receiver.braced, hlist])
  | .typeOf type => braced_keywordCall rfl _ type.braced
  | .defaultOf type => braced_keywordCall rfl _ type.braced
  | .newImplicit arguments =>
    Tree.isBraced_plain rfl (by simp [braced_argumentList (braced_arguments arguments)])
  | .newObject type arguments =>
    Tree.isBraced_plain rfl
      (by simp [type.braced, braced_argumentList (braced_arguments arguments)])
  | .cast type operand => Tree.isBraced_plain rfl (by simp [type.braced, operand.braced])
  | .parenthesized inner => Tree.isBraced_plain rfl (by simp [inner.braced])
  | .prefixed operator operand => Tree.isBraced_plain rfl (by simp [operand.braced])
  | .postfixed operand operator => Tree.isBraced_plain rfl (by simp [operand.braced])
  | .binary left operator right => Tree.isBraced_plain rfl (by simp [left.braced, right.braced])
  | .assign target operator value =>
    Tree.isBraced_plain rfl (by simp [target.braced, value.braced])
  | .lambda modifiers parameters result =>
    Tree.isBraced_plain rfl
      (by simp [Modifier.braced_trees, braced_lambdaParameter, result.braced])
  | .lambdaBlock modifiers parameters body => by
    have hbody := braced_block (braced_statements body) (kind_statementTrees body)
    exact Tree.isBraced_plain rfl (by simp [Modifier.braced_trees, braced_lambdaParameter, hbody])
  | .switch subject arms => by
    have harms : (Tree.plain .switchArmList
        (Tree.enclosed .leftBrace .rightBrace (armTrees arms))).IsBraced :=
      Tree.isBraced_enclosed rfl (kind_armTrees arms) (braced_arms arms)
    exact Tree.isBraced_plain rfl (by simp [subject.braced, harms])
  | .isPattern subject pattern =>
    Tree.isBraced_plain rfl (by simp [subject.braced, pattern.braced])
  | .throw value => Tree.isBraced_plain rfl (by simp [value.braced])
  | .collection items =>
    Tree.isBraced_plain rfl (Tree.areBraced_enclosed _ _ (braced_expressions items))
  | .anchored number inner => Tree.isBraced_anchored inner.braced (.expression number)

theorem braced_expressions : (items : List Expr) → Tree.AreBraced (expressionTrees items)
  | [] => Tree.areBraced_nil
  | value :: rest => by simp [expressionTrees, value.braced, braced_expressions rest]

theorem Argument.braced : (argument : Argument) → argument.toTree.IsBraced
  | .positional value => Tree.isBraced_plain rfl (by simp [value.braced])
  | .named name value => Tree.isBraced_plain rfl (by simp [value.braced])

theorem braced_arguments : (arguments : List Argument) → Tree.AreBraced (argumentTrees arguments)
  | [] => Tree.areBraced_nil
  | argument :: rest => by simp [argumentTrees, argument.braced, braced_arguments rest]

theorem Pattern.braced : (pattern : Pattern) → pattern.toTree.IsBraced
  | .constant value => Tree.isBraced_plain rfl (by simp [value.braced])
  | .discard => Tree.isBraced_plain rfl (by simp)
  | .declaration type name => Tree.isBraced_plain rfl (by simp [type.braced])
  | .negated pattern => Tree.isBraced_plain rfl (by simp [pattern.braced])

theorem braced_arms : (arms : List Arm) → Tree.AreBraced (armTrees arms)
  | [] => Tree.areBraced_nil
  | .case pattern result :: rest => by
    have harm : (Tree.plain .switchArm
        [pattern.toTree, .punct .fatArrow, result.toTree]).IsBraced :=
      Tree.isBraced_plain rfl (by simp [pattern.braced, result.braced])
    simp [armTrees, harm, braced_arms rest]

theorem Stmt.braced : (statement : Stmt) → statement.toTree.IsBraced
  | .expression value => Tree.isBraced_plain rfl (by simp [value.braced])
  | .result value => Tree.isBraced_plain rfl (by simp [value.braced])
  | .leave => Tree.isBraced_plain rfl (by simp)
  | .declare type name value => by
    have hvalue : (Tree.plain .variableDeclarator
        [.ident name, equalsValueTree value.toTree]).IsBraced :=
      Tree.isBraced_plain rfl (by simp [braced_equalsValue value.braced])
    exact Tree.isBraced_plain rfl (by simp [type.braced, hvalue])
  | .ifThen condition body => by
    have hbody := braced_block (braced_statements body) (kind_statementTrees body)
    exact Tree.isBraced_plain rfl (by simp [condition.braced, hbody])
  | .throw value => Tree.isBraced_plain rfl (by simp [value.braced])
  | .emptyWithComment comment => Tree.isBraced_plain rfl (by simp)
  | .block body => braced_block (braced_statements body) (kind_statementTrees body)

theorem braced_statements :
    (statements : List Stmt) → Tree.AreBraced (statementTrees statements)
  | [] => Tree.areBraced_nil
  | statement :: rest => by simp [statementTrees, statement.braced, braced_statements rest]

end

theorem AttributeUse.braced (use : AttributeUse) : use.toTree.IsBraced := by
  cases h : use.arguments with
  | none => exact Tree.isBraced_plain rfl (by simp [h, TypeExpr.braced])
  | some arguments =>
    have harguments := braced_argumentList (braced_arguments arguments)
    exact Tree.isBraced_plain rfl (by simp [h, TypeExpr.braced, harguments])

theorem AttributeGroup.braced (group : AttributeGroup) : group.toTree.IsBraced := by
  have huses := Tree.areBraced_separated (Tree.areBraced_map AttributeUse.braced group.attributes)
  cases h : group.target with
  | none => exact Tree.isBraced_plain rfl (by simp [h, huses])
  | some word =>
    have htarget : (Tree.plain .attributeTarget [.keyword word, .punct .colon]).IsBraced :=
      Tree.isBraced_plain rfl (by simp)
    exact Tree.isBraced_plain rfl (by simp [h, huses, htarget])

theorem braced_values (value : Option Expr) : Tree.AreBraced (valueTrees value) := by
  cases value with
  | none => exact Tree.areBraced_nil
  | some value => simp [valueTrees, braced_equalsValue value.braced]

private theorem braced_arrow (value : Expr) : (arrowTree value).IsBraced :=
  Tree.isBraced_plain rfl (by simp [value.braced])

theorem Body.braced (body : Body) : Tree.AreBraced body.trees := by
  cases body with
  | block statements =>
    simp [trees, braced_block (braced_statements statements) (kind_statementTrees statements)]
  | expression value => simp [trees, braced_arrow]
  | absent => simp [trees]

theorem Parameter.braced (parameter : Parameter) : parameter.toTree.IsBraced :=
  Tree.isBraced_plain rfl (by simp [Modifier.braced_trees, TypeExpr.braced, braced_values])

theorem Parameter.braced_list (parameters : List Parameter) : (listTree parameters).IsBraced :=
  Tree.isBraced_plain rfl
    (Tree.areBraced_enclosed _ _ (Tree.areBraced_map Parameter.braced parameters))

theorem Parameter.braced_bracketed (parameters : List Parameter) :
    (bracketedTree parameters).IsBraced :=
  Tree.isBraced_plain rfl
    (Tree.areBraced_enclosed _ _ (Tree.areBraced_map Parameter.braced parameters))

theorem Accessor.braced (accessor : Accessor) : accessor.toTree.IsBraced :=
  Tree.isBraced_plain rfl (by simp [Modifier.braced_trees, Body.braced])

/-- The braces of accessors are those of a block if one of these has a body. -/
theorem Accessor.braced_list (accessors : List Accessor) : (listTree accessors).IsBraced := by
  have hbraced := Tree.areBraced_map Accessor.braced accessors
  have hkinds : ∀ tree ∈ accessors.map toTree, tree.kind.isBrace = false :=
    List.forall_mem_map.mpr fun accessor _ => rfl
  cases hblock : Tree.isBlock .accessorList
    (.punct .leftBrace :: (accessors.map toTree ++ [.punct .rightBrace])) with
  | true => exact .block hblock hkinds hbraced
  | false =>
    have hchildren : Tree.AreBraced
        (.punct .leftBrace :: (accessors.map toTree ++ [.punct .rightBrace])) := by
      simp [hbraced]
    exact .flat hblock hchildren

theorem Trivia.braced (lines : Trivia) : lines.toTree.IsBraced :=
  Tree.isBraced_plain rfl (Tree.areBraced_leaves lines.lines)

theorem Trivia.braced_trees (lines : Trivia) : Tree.AreBraced lines.trees := by
  unfold trees
  split
  · exact Tree.areBraced_nil
  · simp [lines.braced]

theorem EnumMember.braced (member : EnumMember) : member.toTree.IsBraced :=
  Tree.isBraced_plain rfl
    (by simp [Trivia.braced_trees, Tree.areBraced_map AttributeGroup.braced, braced_values])

theorem Header.braced (header : Header) : Tree.AreBraced header.trees := by
  simp [trees, Trivia.braced_trees, Tree.areBraced_map AttributeGroup.braced, Modifier.braced]

theorem braced_typeParameters (names : List String) :
    Tree.AreBraced (typeParameterTrees names) := by
  unfold typeParameterTrees
  split
  · exact Tree.areBraced_nil
  · have hnames : (Tree.plain .typeParameterList
        (Tree.enclosed .leftAngle .rightAngle (names.map Tree.ident))).IsBraced :=
      Tree.isBraced_plain rfl
        (Tree.areBraced_enclosed _ _ (Tree.areBraced_map (fun _ => .leaf _) names))
    simp [hnames]

theorem braced_bases (bases : List TypeExpr) : Tree.AreBraced (baseTrees bases) := by
  have htypes := Tree.areBraced_separated (Tree.areBraced_map TypeExpr.braced bases)
  unfold baseTrees
  split
  · exact Tree.areBraced_nil
  · have hlist : (Tree.plain .baseList
        (.punct .colon :: Tree.separated (bases.map TypeExpr.toTree))).IsBraced :=
      Tree.isBraced_plain rfl (by simp [htypes])
    simp [hlist]

private theorem braced_baseCall (arguments : List Argument) : (baseCallTree arguments).IsBraced :=
  Tree.isBraced_plain rfl (by simp [braced_argumentList (braced_arguments arguments)])

private theorem kind_memberTrees (members : List Member) :
    ∀ tree ∈ memberTrees members, tree.kind.isBrace = false := by
  rw [memberTrees_eq]
  refine List.forall_mem_map.mpr ?_
  rintro ⟨header, declaration⟩ -
  cases declaration with
  | type keyword name typeParameters bases members => cases keyword <;> rfl
  | _ => rfl

theorem Declaration.isFlat_kind (declaration : Declaration) : declaration.kind.isFlat = true := by
  cases declaration with
  | type keyword name typeParameters bases members => cases keyword <;> rfl
  | _ => rfl

mutual

theorem Member.braced : (member : Member) → member.toTree.IsBraced
  | .declare header declaration =>
    .flat (Tree.isBlock_of_isFlat declaration.isFlat_kind _)
      ((Tree.areBraced_append ..).mpr ⟨header.braced, Declaration.braced declaration⟩)

theorem Declaration.braced : (declaration : Declaration) → Tree.AreBraced declaration.trees
  | .type keyword name typeParameters bases members => by
    have hmembers : (Tree.plain .memberList
        (.punct .leftBrace :: (memberTrees members ++ [.punct .rightBrace]))).IsBraced :=
      Tree.isBraced_block rfl (kind_memberTrees members) (braced_members members)
    simp [Declaration.trees, braced_typeParameters, braced_bases, hmembers]
  | .enumeration name members => by
    have hmembers : (Tree.plain .enumMemberList
        (Tree.enclosed .leftBrace .rightBrace (members.map EnumMember.toTree))).IsBraced :=
      Tree.isBraced_enclosed rfl (List.forall_mem_map.mpr fun _ _ => rfl)
        (Tree.areBraced_map EnumMember.braced members)
    simp [Declaration.trees, hmembers]
  | .field type name initializer => by
    have hname : (Tree.plain .variableDeclarator (.ident name :: valueTrees initializer)).IsBraced :=
      Tree.isBraced_plain rfl (by simp [braced_values])
    simp [Declaration.trees, type.braced, hname]
  | .property type name accessors initializer => by
    cases initializer <;>
      simp [Declaration.trees, type.braced, Accessor.braced_list, braced_equalsValue, Expr.braced]
  | .computed type name value => by simp [Declaration.trees, type.braced, braced_arrow]
  | .indexer type parameters accessors => by
    simp [Declaration.trees, type.braced, Parameter.braced_bracketed, Accessor.braced_list]
  | .method result name typeParameters parameters body => by
    simp [Declaration.trees, result.braced, braced_typeParameters, Parameter.braced_list,
      body.braced]
  | .constructor name parameters baseArguments body => by
    cases baseArguments <;>
      simp [Declaration.trees, Parameter.braced_list, braced_baseCall, body.braced]
  | .operator result operator parameters body => by
    simp [Declaration.trees, result.braced, Parameter.braced_list, body.braced]
  | .conversion implicit target parameters body => by
    simp [Declaration.trees, target.braced, Parameter.braced_list, body.braced]

theorem braced_members : (members : List Member) → Tree.AreBraced (memberTrees members)
  | [] => Tree.areBraced_nil
  | member :: rest => by simp [memberTrees, Member.braced member, braced_members rest]

end

theorem CompilationUnit.braced (unit : CompilationUnit) : unit.toTree.IsBraced := by
  have husing (name : String) : (usingTree name).IsBraced :=
    Tree.isBraced_plain rfl (by simp [TypeExpr.braced])
  have husings := Tree.areBraced_map husing unit.usings
  have hmembers := braced_members unit.members
  rw [toTree]
  split
  · exact Tree.isBraced_plain rfl (by simp [husings, Trivia.braced_trees, hmembers])
  · have hspace : (Tree.plain .fileScopedNamespace (unit.trivia.trees ++
        [.keyword "namespace", (TypeExpr.parse unit.namespaceName).toTree, .punct .semicolon] ++
        memberTrees unit.members)).IsBraced :=
      Tree.isBraced_plain rfl (by simp [Trivia.braced_trees, TypeExpr.braced, hmembers])
    refine Tree.isBraced_plain rfl ((Tree.areBraced_append ..).mpr ⟨husings, ?_⟩)
    exact (Tree.areBraced_cons ..).mpr ⟨hspace, Tree.areBraced_nil⟩

/-- In the tree of every part of a program the blocks have their braces. -/
theorem Tree.IsWritten.isBraced {tree : Tree} (h : tree.IsWritten) : tree.IsBraced := by
  cases h with
  | type type => exact type.braced
  | expression value => exact value.braced
  | argument argument => exact argument.braced
  | pattern pattern => exact pattern.braced
  | arm arm h =>
    have harms := braced_arms [arm]
    rw [h] at harms
    exact harms _ (List.mem_singleton_self _)
  | statement statement => exact statement.braced
  | attributeUse use => exact use.braced
  | attributeGroup group => exact group.braced
  | parameter parameter => exact parameter.braced
  | accessor accessor => exact accessor.braced
  | enumMember member => exact member.braced
  | lines lines => exact lines.braced
  | member member => exact member.braced
  | unit unit => exact unit.braced

end SourceGen
