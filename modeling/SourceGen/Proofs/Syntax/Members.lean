import SourceGen.Proofs.Syntax.Outline

/-! The types and methods that are declared in a tree, and the parts that their declarations have. -/

namespace SourceGen

namespace Tree

/-- The declarations in a tree, each in front of those inside it. -/
def declared (tree : Tree) : List Tree :=
  (tree.descendants.filter Site.declares).map Site.toTree

/-- The types that are declared in a tree. -/
def types (tree : Tree) : List Tree :=
  tree.declared.filter (·.kind.isTypeDeclaration)

/-- The methods that are declared in a tree. -/
def methods (tree : Tree) : List Tree :=
  tree.declared.filter (·.kind == .methodDeclaration)

mutual

private theorem declared_eq (enclosing : List Span) (start : Nat) :
    (tree : Tree) → (tree.declarations enclosing start).map Site.toTree = tree.declared
  | leaf _ => rfl
  | node kind anchor children => by
    have h : (node kind anchor children).declared =
      ((node kind anchor children).declarations [] 0).map Site.toTree := rfl
    rw [h, declarations_node, declarations_node, List.map_append, List.map_append,
      declaredOf_eq _ _ children, declaredOf_eq _ _ children]
    split <;> rfl

private theorem declaredOf_eq (enclosing : List Span) (start : Nat) :
    (trees : List Tree) →
      (declarationsOf enclosing start trees).map Site.toTree = trees.flatMap declared
  | [] => rfl
  | tree :: trees => by
    rw [declarationsOf_cons, List.map_append, declared_eq _ _ tree, declaredOf_eq _ _ trees,
      List.flatMap_cons]

end

theorem declared_node (kind : Kind) (anchor : Option Anchor) (children : List Tree) :
    (node kind anchor children).declared =
      (if kind.isDeclaring then [node kind anchor children] else []) ++
        children.flatMap declared := by
  have h : (node kind anchor children).declared =
    ((node kind anchor children).declarations [] 0).map Site.toTree := rfl
  rw [h, declarations_node, List.map_append, declaredOf_eq]
  split <;> rfl

theorem declared_plain {kind : Kind} (h : kind.isDeclaring = false) (children : List Tree) :
    (plain kind children).declared = children.flatMap declared := by
  rw [plain, declared_node, h]
  rfl

theorem declared_quiet {tree : Tree} (h : tree.isQuiet = true) : tree.declared = [] := by
  rw [← declared_eq [] 0, declarations_quiet [] 0 tree h]
  rfl

theorem flatMap_declared_quiet {trees : List Tree} (h : trees.all isQuiet = true) :
    trees.flatMap declared = [] := by
  rw [← declaredOf_eq [] 0, declarationsOf_quiet [] 0 trees h]
  rfl

/-- The trees of certain kinds among some. -/
def ofKinds (kinds : List Kind) (trees : List Tree) : List Tree :=
  trees.filter fun tree => kinds.contains tree.kind

/-- The parts of certain kinds right under the root of a tree. -/
def parts (kinds : List Kind) (tree : Tree) : List Tree :=
  ofKinds kinds tree.children

/-- The result type, name, type parameters and parameters of a method. -/
def heading (tree : Tree) : List Tree :=
  tree.parts [.type, .identifier, .typeParameterList, .parameterList]

/-- Whether a tree declares a type of a kind, with a name and a list of bases. -/
structure DeclaresType (kind : Kind) (name : String) (bases : List Tree) (tree : Tree) :
    Prop where
  kind : tree.kind = kind
  name : tree.parts [.identifier] = [.ident name]
  bases : tree.parts [.baseList] = bases

/-- Whether a tree declares something of a sort, with a name. -/
structure Declares (kind : Kind) (name : String) (tree : Tree) : Prop where
  kind : tree.kind = kind
  name : tree.parts [.identifier] = [.ident name]

@[simp] theorem kind_plain (kind : Kind) (children : List Tree) :
    (plain kind children).kind = kind :=
  rfl

@[simp] theorem kind_punct (kind : Kind) : (punct kind).kind = kind :=
  rfl

@[simp] theorem kind_ident (text : String) : (ident text).kind = .identifier :=
  rfl

@[simp] theorem kind_keyword (text : String) : (keyword text).kind = .keyword :=
  rfl

section Kinds

variable {kinds : List Kind}

@[simp] theorem ofKinds_nil : ofKinds kinds [] = [] :=
  rfl

@[simp] theorem ofKinds_cons (tree : Tree) (trees : List Tree) :
    ofKinds kinds (tree :: trees) =
      if tree.kind ∈ kinds then tree :: ofKinds kinds trees else ofKinds kinds trees := by
  simp [ofKinds, List.filter_cons]

@[simp] theorem ofKinds_append (trees others : List Tree) :
    ofKinds kinds (trees ++ others) = ofKinds kinds trees ++ ofKinds kinds others :=
  List.filter_append ..

theorem ofKinds_eq_nil {trees : List Tree} (h : ∀ tree ∈ trees, tree.kind ∉ kinds) :
    ofKinds kinds trees = [] := by
  rw [ofKinds, List.filter_eq_nil_iff]
  simpa using h

@[simp] theorem ofKinds_keywords (words : List String) :
    ofKinds kinds (words.map keyword) = if .keyword ∈ kinds then words.map keyword else [] := by
  induction words with
  | nil => simp
  | cons word words ih =>
    rw [List.map_cons, ofKinds_cons, ih]
    split <;> simp_all

end Kinds

end Tree

section Parts

variable {kinds : List Kind}

@[simp] theorem TypeExpr.kind_toTree (type : TypeExpr) : type.toTree.kind = .type :=
  rfl

@[simp] theorem Parameter.kind_listTree (parameters : List Parameter) :
    (listTree parameters).kind = .parameterList :=
  rfl

@[simp] theorem ofKinds_typeParameters (names : List String) :
    Tree.ofKinds kinds (typeParameterTrees names) =
      if .typeParameterList ∈ kinds then typeParameterTrees names else [] := by
  unfold typeParameterTrees
  split
  · simp
  · exact Tree.ofKinds_cons _ []

@[simp] theorem ofKinds_bases (bases : List TypeExpr) :
    Tree.ofKinds kinds (baseTrees bases) = if .baseList ∈ kinds then baseTrees bases else [] := by
  unfold baseTrees
  split
  · simp
  · exact Tree.ofKinds_cons _ []

end Parts

/-- The name that stands in a declaration, if there is one. A field has its name in a part of its
own. -/
def Declaration.name? : Declaration → Option String
  | .type _ name _ _ _ => some name
  | .enumeration name _ => some name
  | .property _ name _ _ => some name
  | .computed _ name _ => some name
  | .method _ name _ _ _ => some name
  | .constructor name _ _ _ => some name
  | .field .. | .indexer .. | .operator .. | .conversion .. => none

namespace Member

/-- The sort of a member and its name. -/
def outline (member : Member) : Kind × Option String :=
  (member.declaration.kind, member.declaration.name?)

variable (header : Header)

/-- The declarations in the tree of a member are the member itself and those inside it. -/
theorem declared_toTree (declaration : Declaration) :
    (declare header declaration).toTree.declared =
      (declare header declaration).toTree :: declaration.back.flatMap Tree.declared := by
  rw [toTree, Tree.declared_node, declaration.kind_isDeclaring, if_pos rfl, declaration.trees_eq,
    List.flatMap_append, List.flatMap_append, Tree.flatMap_declared_quiet header.quiet,
    Tree.flatMap_declared_quiet declaration.quiet_front]
  rfl

theorem declared_back (keyword : TypeKeyword) (name : String) (typeParameters : List String)
    (bases : List TypeExpr) (members : List Member) :
    (Declaration.back (.type keyword name typeParameters bases members)).flatMap Tree.declared =
      members.flatMap fun member => member.toTree.declared := by
  have hclose : [Tree.punct .rightBrace].all Tree.isQuiet = true := by simp
  rw [Declaration.back, List.flatMap_singleton, Tree.declared_plain (by decide),
    List.flatMap_append, List.flatMap_cons, memberTrees_eq, List.flatMap_map,
    Tree.declared_quiet (Tree.isQuiet_punct _), Tree.flatMap_declared_quiet hclose,
    List.nil_append, List.append_nil]

theorem back_of_method {declaration : Declaration} (h : declaration.kind = .methodDeclaration) :
    declaration.back = [] := by
  cases declaration with
  | type keyword name typeParameters bases members => cases keyword <;> cases h
  | _ => rfl

/-- In a type whose members are not types themselves these are declared. -/
theorem declared_of_back (keyword : TypeKeyword) (name : String) (typeParameters : List String)
    (bases : List TypeExpr) {members : List Member}
    (h : ∀ member ∈ members, member.declaration.back = []) :
    let tree := (declare header (.type keyword name typeParameters bases members)).toTree
    tree.declared = tree :: members.map toTree := by
  intro tree
  have hmember : ∀ member ∈ members, member.toTree.declared = [member.toTree] := by
    rintro ⟨own, declaration⟩ hm
    have hback : declaration.back = [] := h _ hm
    rw [declared_toTree, hback]
    rfl
  rw [declared_toTree, declared_back, List.flatMap_congr hmember, List.map_eq_flatMap]

/-- In a type that has only methods for its members these are declared, and no other type. -/
theorem declared_of_methods (keyword : TypeKeyword) (name : String) (typeParameters : List String)
    (bases : List TypeExpr) {members : List Member}
    (h : ∀ member ∈ members, member.declaration.kind = .methodDeclaration) :
    let tree := (declare header (.type keyword name typeParameters bases members)).toTree
    tree.types = [tree] ∧ tree.methods = members.map toTree := by
  intro tree
  have htree : tree.declared = tree :: members.map toTree :=
    declared_of_back header keyword name typeParameters bases fun member hm =>
      back_of_method (h member hm)
  have hkind : tree.kind = keyword.kind := rfl
  have hkinds : ∀ method ∈ members.map toTree, method.kind = .methodDeclaration := by
    intro method hmethod
    obtain ⟨⟨own, declaration⟩, hm, rfl⟩ := List.mem_map.mp hmethod
    exact h _ hm
  constructor
  · have hnone : (members.map toTree).filter (·.kind.isTypeDeclaration) = [] := by
      rw [List.filter_eq_nil_iff]
      intro method hm
      rw [hkinds method hm]
      decide
    rw [Tree.types, htree, List.filter_cons, hnone, hkind]
    cases keyword <;> rfl
  · have hall : (members.map toTree).filter (·.kind == .methodDeclaration) =
        members.map toTree := by
      rw [List.filter_eq_self]
      intro method hm
      rw [hkinds method hm]
      rfl
    rw [Tree.methods, htree, List.filter_cons, hall, hkind]
    cases keyword <;> rfl

/-- The parts of a declaration stand behind its modifiers. -/
theorem parts_toTree {kinds : List Kind}
    (h : ∀ kind ∈ [.leadingTrivia, .attributeList, .modifiers], kind ∉ kinds)
    (declaration : Declaration) :
    (declare header declaration).toTree.parts kinds = Tree.ofKinds kinds declaration.trees := by
  have hheader : ∀ tree ∈ header.trees, tree.kind ∉ kinds := by
    intro tree hm
    refine h tree.kind ?_
    simpa using (header_isNode hm).2
  rw [toTree, Tree.parts, Tree.children, Tree.ofKinds_append, Tree.ofKinds_eq_nil hheader,
    List.nil_append]

/-- The tree of a member has its sort and its name. -/
theorem declares_toTree {name : String} {declaration : Declaration}
    (h : declaration.name? = some name) :
    (declare header declaration).toTree.Declares declaration.kind name := by
  refine ⟨rfl, ?_⟩
  rw [parts_toTree header (by decide)]
  cases declaration with
  | type | enumeration | computed =>
    cases h
    simp [Declaration.trees, arrowTree]
  | property _ _ _ initializer =>
    cases h
    cases initializer <;> simp [Declaration.trees, Accessor.listTree, equalsValueTree]
  | method _ _ _ _ body =>
    cases h
    cases body <;> simp [Declaration.trees, Body.trees, blockTree, arrowTree]
  | constructor _ _ arguments body =>
    cases h
    cases arguments <;> cases body <;>
      simp [Declaration.trees, Body.trees, blockTree, arrowTree, baseCallTree]
  | field | indexer | operator | conversion => cases h

/-- The trees of members have the sorts and names of these, in order. -/
theorem forall₂_declares {members : List Member} {outline : List (Kind × String)}
    (h : members.map Member.outline = outline.map (Prod.map id some)) :
    List.Forall₂ (fun own tree => tree.Declares own.1 own.2) outline (members.map toTree) := by
  induction members generalizing outline with
  | nil =>
    obtain rfl : outline = [] := List.map_eq_nil_iff.mp h.symm
    exact .nil
  | cons member members ih =>
    obtain ⟨own, rest, rfl, hown, hrest⟩ := List.map_eq_cons_iff.mp h.symm
    obtain ⟨header, declaration⟩ := member
    obtain ⟨hkind, hname⟩ := Prod.ext_iff.mp hown
    refine .cons ?_ (ih hrest.symm)
    rw [show own.1 = declaration.kind from hkind]
    exact declares_toTree header hname.symm

section Types

variable (keyword : TypeKeyword) (name : String) (typeParameters : List String)
  (bases : List TypeExpr) (members : List Member)

theorem declaresType :
    (declare header (.type keyword name typeParameters bases members)).toTree.DeclaresType
      keyword.kind name (baseTrees bases) where
  kind := rfl
  name := by simp [parts_toTree, Declaration.trees]
  bases := by simp [parts_toTree, Declaration.trees]

end Types

section Methods

variable (result : TypeExpr) (name : String) (typeParameters : List String)
  (parameters : List Parameter) (body : Body)

theorem heading_method :
    (declare header (.method result name typeParameters parameters body)).toTree.heading =
      result.toTree :: .ident name :: typeParameterTrees typeParameters ++
        [Parameter.listTree parameters] := by
  cases body <;> simp [Tree.heading, parts_toTree, Declaration.trees, Body.trees, blockTree, arrowTree]

/-- The body of a method that computes an expression. -/
theorem value_method (value : Expr) :
    (declare header
        (.method result name typeParameters parameters (.expression value))).toTree.parts
      [.arrowExpressionClause, .block] = [arrowTree value] := by
  simp [parts_toTree, Declaration.trees, Body.trees, arrowTree]

theorem modifiers_method :
    (declare header (.method result name typeParameters parameters body)).toTree.parts
      [.modifiers] = [Modifier.tree header.modifiers] := by
  obtain ⟨front, hheader, hfront⟩ := header_trees header
  have hnone : Tree.ofKinds [.modifiers] front = [] := by
    refine Tree.ofKinds_eq_nil fun tree hm => ?_
    rcases (hfront tree hm).2 with hkind | hkind <;> simp [hkind]
  rw [toTree, hheader, Tree.parts, Tree.children]
  cases body <;> simp [hnone, Declaration.trees, Body.trees, Modifier.tree, blockTree, arrowTree]

end Methods

end Member

namespace CompilationUnit

/-- The declarations in a file are those in its members. -/
theorem declared_toTree (unit : CompilationUnit) :
    unit.toTree.declared = unit.members.flatMap fun member => member.toTree.declared := by
  have hmembers : (memberTrees unit.members).flatMap Tree.declared =
      unit.members.flatMap fun member => member.toTree.declared := by
    rw [memberTrees_eq, List.flatMap_map]
  rw [toTree, Tree.declared_plain (by decide), List.flatMap_append,
    Tree.flatMap_declared_quiet unit.quiet_usings, List.nil_append]
  split
  · rw [List.flatMap_append, Tree.flatMap_declared_quiet unit.trivia.quiet, hmembers,
      List.nil_append]
  · rw [List.flatMap_singleton, Tree.declared_plain (by decide), List.flatMap_append,
      Tree.flatMap_declared_quiet unit.quiet_namespace, hmembers, List.nil_append]

theorem types_toTree (unit : CompilationUnit) :
    unit.toTree.types = unit.members.flatMap fun member => member.toTree.types := by
  rw [Tree.types, declared_toTree, List.filter_flatMap]
  rfl

end CompilationUnit

end SourceGen
