import SourceGen.Generator.Phrase
import SourceGen.Proofs.Syntax.Quiet
import Mathlib.Data.List.Basic

/-! The declarations in the tree of a file. No two of them start at the same byte. -/

namespace SourceGen

/-- Whether a node declares what a symbol can be bound to. -/
def Site.declares (site : Site) : Bool :=
  site.kind.isDeclaring

namespace Tree

/-- The declarations in a tree. -/
def declarations (enclosing : List Span) (start : Nat) (tree : Tree) : List Site :=
  (tree.sites enclosing start).filter Site.declares

/-- The declarations in several trees that follow each other. -/
def declarationsOf (enclosing : List Span) (start : Nat) (trees : List Tree) : List Site :=
  (sitesOf enclosing start trees).filter Site.declares

@[simp] theorem lengthOf_append (trees others : List Tree) :
    lengthOf (trees ++ others) = lengthOf trees + lengthOf others := by
  induction trees with
  | nil => simp [lengthOf]
  | cons tree trees ih => simp [lengthOf, ih, Nat.add_assoc]

theorem lengthOf_pos {tree : Tree} {trees : List Tree} (hm : tree ∈ trees)
    (h : 0 < tree.length) : 0 < lengthOf trees := by
  induction hm with
  | head => exact Nat.add_pos_left h _
  | tail _ _ ih => exact Nat.add_pos_right _ ih

theorem declarationsOf_cons (enclosing : List Span) (start : Nat) (tree : Tree)
    (trees : List Tree) :
    declarationsOf enclosing start (tree :: trees) =
      tree.declarations enclosing start ++
        declarationsOf enclosing (start + tree.length) trees := by
  simp [declarationsOf, declarations, sitesOf]

theorem declarationsOf_append (enclosing : List Span) (start : Nat) (trees others : List Tree) :
    declarationsOf enclosing start (trees ++ others) =
      declarationsOf enclosing start trees ++
        declarationsOf enclosing (start + lengthOf trees) others := by
  induction trees generalizing start with
  | nil => simp [declarationsOf, sitesOf, lengthOf]
  | cons tree trees ih =>
    simp [declarationsOf_cons, ih, lengthOf, Nat.add_assoc]

theorem declarations_node (enclosing : List Span) (start : Nat) (kind : Kind)
    (anchor : Option Anchor) (children : List Tree) :
    (node kind anchor children).declarations enclosing start =
      (if kind.isDeclaring then
        [⟨⟨kind, start, start + lengthOf children⟩, anchor, children, enclosing⟩] else []) ++
        declarationsOf (⟨kind, start, start + lengthOf children⟩ :: enclosing) start children := by
  by_cases h : kind.isDeclaring = true <;>
    simp [declarations, declarationsOf, sites, Site.declares, Site.kind, h]

mutual

theorem declarations_quiet (enclosing : List Span) (start : Nat) :
    (tree : Tree) → tree.isQuiet = true → tree.declarations enclosing start = []
  | leaf _, _ => rfl
  | node kind anchor children, h => by
    simp only [isQuiet, Bool.and_eq_true, Bool.not_eq_true'] at h
    rw [declarations_node, h.1.1, declarationsOf_quiet _ _ children (areQuiet_eq_all _ ▸ h.2)]
    rfl

theorem declarationsOf_quiet (enclosing : List Span) (start : Nat) :
    (trees : List Tree) → trees.all isQuiet = true → declarationsOf enclosing start trees = []
  | [], _ => rfl
  | tree :: trees, h => by
    rw [List.all_cons, Bool.and_eq_true] at h
    rw [declarationsOf_cons, declarations_quiet _ _ tree h.1, declarationsOf_quiet _ _ trees h.2]
    rfl

end

theorem sitesOf_append (enclosing : List Span) (start : Nat) (trees others : List Tree) :
    sitesOf enclosing start (trees ++ others) =
      sitesOf enclosing start trees ++ sitesOf enclosing (start + lengthOf trees) others := by
  induction trees generalizing start with
  | nil => simp [sitesOf, lengthOf]
  | cons tree trees ih => simp [sitesOf, ih, lengthOf, Nat.add_assoc]

mutual

private theorem unnamed_of_quiet (enclosing : List Span) (start : Nat) :
    (tree : Tree) → tree.isQuiet = true → ∀ site ∈ tree.sites enclosing start,
      site.anchor.any Anchor.isDeclaration = false
  | leaf _, _, _, hs => nomatch hs
  | node kind anchor children, h, site, hs => by
    simp only [isQuiet, Bool.and_eq_true, Bool.not_eq_true'] at h
    rcases List.mem_cons.mp hs with rfl | hs
    · exact h.1.2
    · exact unnamedOf_of_quiet _ _ children (areQuiet_eq_all _ ▸ h.2) site hs

private theorem unnamedOf_of_quiet (enclosing : List Span) (start : Nat) :
    (trees : List Tree) → trees.all isQuiet = true → ∀ site ∈ sitesOf enclosing start trees,
      site.anchor.any Anchor.isDeclaration = false
  | [], _, _, hs => nomatch hs
  | tree :: trees, h, site, hs => by
    rw [List.all_cons, Bool.and_eq_true] at h
    rcases List.mem_append.mp hs with hs | hs
    · exact unnamed_of_quiet _ _ tree h.1 site hs
    · exact unnamedOf_of_quiet _ _ trees h.2 site hs

end

/-- Whether declarations start one after the other and inside of the trees that they are in, and
nothing else has the name of a declaration. -/
structure OrderlyAt (enclosing : List Span) (start : Nat) (trees : List Tree) : Prop where
  pairwise : (declarationsOf enclosing start trees).Pairwise (·.span.start < ·.span.start)
  inside : ∀ site ∈ declarationsOf enclosing start trees,
    start ≤ site.span.start ∧ site.span.start < start + lengthOf trees
  named : ∀ site ∈ sitesOf enclosing start trees,
    site.anchor.any Anchor.isDeclaration = true → site.declares = true

/-- Whether the declarations in trees are in order, wherever the trees are. -/
def Orderly (trees : List Tree) : Prop :=
  ∀ enclosing start, OrderlyAt enclosing start trees

theorem orderly_of_quiet {trees : List Tree} (h : trees.all isQuiet = true) : Orderly trees := by
  intro enclosing start
  have hd := declarationsOf_quiet enclosing start trees h
  refine ⟨by simp [hd], by simp [hd], fun site hs hn => ?_⟩
  simp [unnamedOf_of_quiet enclosing start trees h site hs] at hn

theorem orderly_append {trees others : List Tree} (ht : Orderly trees) (ho : Orderly others) :
    Orderly (trees ++ others) := by
  intro enclosing start
  obtain ⟨hpair, hin, hnamed⟩ := ht enclosing start
  obtain ⟨hpair', hin', hnamed'⟩ := ho enclosing (start + lengthOf trees)
  refine ⟨?_, ?_, ?_⟩
  · rw [declarationsOf_append]
    refine List.pairwise_append.mpr ⟨hpair, hpair', fun site hs other ho => ?_⟩
    have := hin site hs
    have := hin' other ho
    omega
  · rw [declarationsOf_append, lengthOf_append]
    intro site hs
    rcases List.mem_append.mp hs with hs | hs
    · have := hin site hs
      omega
    · have := hin' site hs
      omega
  · rw [sitesOf_append]
    intro site hs
    rcases List.mem_append.mp hs with hs | hs
    · exact hnamed site hs
    · exact hnamed' site hs

/-- The declarations of a node whose parts in front of some point declare nothing. -/
theorem declarations_node_append {front : List Tree} (hq : front.all isQuiet = true)
    (enclosing : List Span) (start : Nat) (kind : Kind) (anchor : Option Anchor)
    (back : List Tree) :
    let span : Span := ⟨kind, start, start + lengthOf (front ++ back)⟩
    (node kind anchor (front ++ back)).declarations enclosing start =
      (if kind.isDeclaring then [⟨span, anchor, front ++ back, enclosing⟩] else []) ++
        declarationsOf (span :: enclosing) (start + lengthOf front) back := by
  rw [declarations_node, declarationsOf_append, declarationsOf_quiet _ _ front hq,
    List.nil_append]

/-- The declarations of a node that declares nothing itself. -/
theorem declarationsOf_wrapped {kind : Kind} {front back : List Tree}
    (hk : kind.isDeclaring = false) (hf : front.all isQuiet = true) (hb : back.all isQuiet = true)
    (anchor : Option Anchor) (inner : List Tree) (enclosing : List Span) (start : Nat) :
    ∃ (span : Span) (first : Nat), span.kind = kind ∧
      declarationsOf enclosing start [node kind anchor (front ++ (inner ++ back))] =
        declarationsOf (span :: enclosing) first inner := by
  refine ⟨⟨kind, start, start + lengthOf (front ++ (inner ++ back))⟩, start + lengthOf front,
    rfl, ?_⟩
  rw [declarationsOf_cons, declarations_node_append hf, hk, declarationsOf_append,
    declarationsOf_quiet _ _ back hb]
  simp [declarationsOf, sitesOf]

/-- A node whose declarations stand behind something that is not empty has them in order. -/
theorem orderly_node {kind : Kind} {anchor : Option Anchor} {front back : List Tree}
    (hk : anchor.any Anchor.isDeclaration = true → kind.isDeclaring = true)
    (hq : front.all isQuiet = true) (hl : kind.isDeclaring = true → 0 < lengthOf front)
    (hb : Orderly back) : Orderly [node kind anchor (front ++ back)] := by
  intro enclosing start
  let span : Span := ⟨kind, start, start + lengthOf (front ++ back)⟩
  obtain ⟨hpair, hin, hnamed⟩ := hb (span :: enclosing) (start + lengthOf front)
  have hlength : lengthOf [node kind anchor (front ++ back)] =
      lengthOf front + lengthOf back := by
    simp [lengthOf, length]
  have hd : declarationsOf enclosing start [node kind anchor (front ++ back)] =
      (if kind.isDeclaring then [⟨span, anchor, front ++ back, enclosing⟩] else []) ++
        declarationsOf (span :: enclosing) (start + lengthOf front) back := by
    rw [declarationsOf_cons, declarations_node_append hq]
    simp [declarationsOf, sitesOf, span]
  refine ⟨?_, ?_, ?_⟩
  · rw [hd]
    refine List.pairwise_append.mpr ⟨by split <;> simp, hpair, fun site hs other ho => ?_⟩
    have := hin other ho
    split at hs
    · next hdeclares =>
      have := hl hdeclares
      obtain rfl := List.mem_singleton.mp hs
      simp only [span]
      omega
    · simp at hs
  · rw [hd, hlength]
    intro site hs
    rcases List.mem_append.mp hs with hs | hs
    · split at hs
      · next hdeclares =>
        have := hl hdeclares
        obtain rfl := List.mem_singleton.mp hs
        simp only [span]
        omega
      · simp at hs
    · have := hin site hs
      omega
  · intro site hs hn
    simp only [sitesOf, sites, List.append_nil] at hs
    rcases List.mem_cons.mp hs with rfl | hs
    · exact hk hn
    · rw [sitesOf_append] at hs
      rcases List.mem_append.mp hs with hs | hs
      · simp [unnamedOf_of_quiet _ _ front hq site hs] at hn
      · exact hnamed site hs hn

end Tree

namespace Declaration

/-- The tree of the members of a type. -/
def back : Declaration → List Tree
  | .type _ _ _ _ members =>
    [.plain .memberList (.punct .leftBrace :: memberTrees members ++ [.punct .rightBrace])]
  | _ => []

theorem trees_eq (declaration : Declaration) :
    declaration.trees = declaration.front ++ declaration.back := by
  cases declaration <;> simp [trees, front, back]

theorem kind_isDeclaring (declaration : Declaration) : declaration.kind.isDeclaring = true := by
  cases declaration with
  | type keyword name typeParameters bases members => cases keyword <;> rfl
  | _ => rfl

private theorem parameterList_pos (parameters : List Parameter) :
    0 < (Parameter.listTree parameters).length := by
  have h : Tree.punct .leftParen ∈ Tree.enclosed .leftParen .rightParen
      (parameters.map Parameter.toTree) := by
    simp [Tree.enclosed]
  exact Tree.lengthOf_pos h (by decide)

theorem front_pos (declaration : Declaration) : 0 < Tree.lengthOf declaration.front := by
  cases declaration with
  | type keyword name typeParameters bases members =>
    have h : 0 < Tree.lengthOf (keyword.words.map Tree.keyword) := by cases keyword <;> decide
    simp only [front, List.append_assoc, Tree.lengthOf_append]
    omega
  | enumeration name members =>
    have h : Tree.keyword "enum" ∈ front (.enumeration name members) := by simp [front, trees]
    exact Tree.lengthOf_pos h (by decide)
  | field type name initializer =>
    have h : Tree.punct .semicolon ∈ front (.field type name initializer) := by
      simp [front, trees]
    exact Tree.lengthOf_pos h (by decide)
  | property type name accessors initializer =>
    have h : Accessor.listTree accessors ∈ front (.property type name accessors initializer) := by
      simp [front, trees]
    have hb : Tree.punct .leftBrace ∈
        .punct .leftBrace :: accessors.map Accessor.toTree ++ [.punct .rightBrace] := by
      simp
    exact Tree.lengthOf_pos h (Tree.lengthOf_pos hb (by decide))
  | computed type name value =>
    have h : Tree.punct .semicolon ∈ front (.computed type name value) := by
      simp [front, trees]
    exact Tree.lengthOf_pos h (by decide)
  | indexer type parameters accessors =>
    have h : Tree.keyword "this" ∈ front (.indexer type parameters accessors) := by
      simp [front, trees]
    exact Tree.lengthOf_pos h (by decide)
  | method result name typeParameters parameters body =>
    have h : Parameter.listTree parameters ∈
        front (.method result name typeParameters parameters body) := by
      simp [front, trees]
    exact Tree.lengthOf_pos h (parameterList_pos parameters)
  | constructor name parameters baseArguments body =>
    have h : Parameter.listTree parameters ∈
        front (.constructor name parameters baseArguments body) := by
      simp [front, trees]
    exact Tree.lengthOf_pos h (parameterList_pos parameters)
  | operator result operator parameters body =>
    have h : Parameter.listTree parameters ∈
        front (.operator result operator parameters body) := by
      simp [front, trees]
    exact Tree.lengthOf_pos h (parameterList_pos parameters)
  | conversion implicit target parameters body =>
    have h : Parameter.listTree parameters ∈
        front (.conversion implicit target parameters body) := by
      simp [front, trees]
    exact Tree.lengthOf_pos h (parameterList_pos parameters)

end Declaration

/-- In front of the modifiers there are lines and attributes. -/
theorem header_trees (header : Header) :
    ∃ front, header.trees = front ++ [Modifier.tree header.modifiers] ∧
      ∀ tree ∈ front, tree.isNode = true ∧ (tree.kind = .leadingTrivia ∨ tree.kind = .attributeList) := by
  refine ⟨header.trivia.trees ++ header.attributes.map AttributeGroup.toTree, rfl, ?_⟩
  intro tree hm
  rcases List.mem_append.mp hm with hm | hm
  · unfold Trivia.trees at hm
    split at hm
    · cases hm
    · obtain rfl := List.mem_singleton.mp hm
      exact ⟨rfl, .inl rfl⟩
  · obtain ⟨group, -, rfl⟩ := List.mem_map.mp hm
    exact ⟨rfl, .inr rfl⟩

theorem header_isNode {header : Header} {tree : Tree} (h : tree ∈ header.trees) :
    tree.isNode = true ∧
      (tree.kind = .leadingTrivia ∨ tree.kind = .attributeList ∨ tree.kind = .modifiers) := by
  obtain ⟨front, hheader, hfront⟩ := header_trees header
  rw [hheader] at h
  rcases List.mem_append.mp h with h | h
  · obtain ⟨hnode, hkind⟩ := hfront tree h
    exact ⟨hnode, hkind.imp_right .inl⟩
  · obtain rfl := List.mem_singleton.mp h
    exact ⟨rfl, .inr (.inr rfl)⟩

theorem memberTrees_eq (members : List Member) :
    memberTrees members = members.map Member.toTree := by
  induction members with
  | nil => rfl
  | cons member rest ih => rw [memberTrees, ih, List.map_cons]

mutual

theorem Member.orderly : (member : Member) → Tree.Orderly [member.toTree]
  | .declare header declaration => by
    rw [Member.toTree, Declaration.trees_eq, ← List.append_assoc]
    refine Tree.orderly_node (fun _ => declaration.kind_isDeclaring) ?_ ?_
      (Declaration.orderly_back declaration)
    · simp [Header.quiet, Declaration.quiet_front]
    · have := declaration.front_pos
      rw [Tree.lengthOf_append]
      intro
      omega

theorem Declaration.orderly_back :
    (declaration : Declaration) → Tree.Orderly declaration.back
  | .type keyword name typeParameters bases members => by
    have hclose : Tree.Orderly [.punct .rightBrace] := Tree.orderly_of_quiet (by simp)
    have hopen : [Tree.punct .leftBrace].all Tree.isQuiet = true := by simp
    have h : Tree.Orderly [.plain .memberList
        ([.punct .leftBrace] ++ (memberTrees members ++ [.punct .rightBrace]))] :=
      Tree.orderly_node (by simp) hopen (fun _ => by decide)
        (Tree.orderly_append (orderly_members members) hclose)
    exact h
  | .enumeration .. | .field .. | .property .. | .computed .. | .indexer .. | .method ..
  | .constructor .. | .operator .. | .conversion .. => Tree.orderly_of_quiet rfl

theorem orderly_members : (members : List Member) → Tree.Orderly (memberTrees members)
  | [] => Tree.orderly_of_quiet rfl
  | member :: rest => Tree.orderly_append (Member.orderly member) (orderly_members rest)

end

namespace Member

/-- The first declaration in the tree of a member is the member itself. -/
theorem declarations_eq (header : Header) (declaration : Declaration) (enclosing : List Span)
    (start : Nat) :
    let children := header.trees ++ declaration.trees
    let span : Span := ⟨declaration.kind, start, start + Tree.lengthOf children⟩
    (declare header declaration).toTree.declarations enclosing start =
      ⟨span, header.anchor, children, enclosing⟩ ::
        Tree.declarationsOf (span :: enclosing)
          (start + Tree.lengthOf (header.trees ++ declaration.front)) declaration.back := by
  have hq : (header.trees ++ declaration.front).all Tree.isQuiet = true := by
    simp [Header.quiet, Declaration.quiet_front]
  simp only [toTree, Declaration.trees_eq, ← List.append_assoc]
  rw [Tree.declarations_node_append hq, declaration.kind_isDeclaring]
  rfl

/-- The declarations inside of a type are those of its members. -/
theorem declarationsOf_back (keyword : TypeKeyword) (name : String) (typeParameters : List String)
    (bases : List TypeExpr) (members : List Member) (enclosing : List Span) (start : Nat) :
    ∃ (list : Span) (first : Nat), list.kind = .memberList ∧
      Tree.declarationsOf enclosing start
          (Declaration.back (.type keyword name typeParameters bases members)) =
        Tree.declarationsOf (list :: enclosing) first (memberTrees members) := by
  have hopen : [Tree.punct .leftBrace].all Tree.isQuiet = true := by simp
  have hclose : [Tree.punct .rightBrace].all Tree.isQuiet = true := by simp
  exact Tree.declarationsOf_wrapped rfl hopen hclose none (memberTrees members) enclosing start

end Member

namespace CompilationUnit

theorem quiet_usings (unit : CompilationUnit) :
    (unit.usings.map usingTree).all Tree.isQuiet = true := by
  have h (name : String) : (usingTree name).isQuiet = true := by
    simp [usingTree, TypeExpr.quiet]; decide
  simp [h]

theorem quiet_namespace (unit : CompilationUnit) :
    (unit.trivia.trees ++ [.keyword "namespace", (TypeExpr.parse unit.namespaceName).toTree,
      .punct .semicolon]).all Tree.isQuiet = true := by
  simp [Trivia.quiet, TypeExpr.quiet]

theorem orderly (unit : CompilationUnit) : Tree.Orderly [unit.toTree] := by
  have hm := orderly_members unit.members
  rw [toTree]
  refine Tree.orderly_node (by simp) unit.quiet_usings (by simp [Kind.isDeclaring,
    Kind.isMemberDeclaration, Kind.isTypeDeclaration]) ?_
  split
  · exact Tree.orderly_append (Tree.orderly_of_quiet unit.trivia.quiet) hm
  · exact Tree.orderly_node (by simp) unit.quiet_namespace (by simp [Kind.isDeclaring,
      Kind.isMemberDeclaration, Kind.isTypeDeclaration]) hm

/-- The declarations in a file are those of its members, and there is no type around them. -/
theorem declarations_eq (unit : CompilationUnit) :
    ∃ enclosing start, (∀ span ∈ enclosing, span.kind.isTypeDeclaration = false) ∧
      unit.toTree.declarations [] 0 =
        Tree.declarationsOf enclosing start (memberTrees unit.members) := by
  by_cases hn : unit.namespaceName.isEmpty = true
  · have hq : (unit.usings.map usingTree ++ unit.trivia.trees).all Tree.isQuiet = true := by
      rw [List.all_append, unit.quiet_usings, unit.trivia.quiet]
      rfl
    have ht : unit.toTree = .node .compilationUnit none
        (unit.usings.map usingTree ++ unit.trivia.trees ++ memberTrees unit.members) := by
      simp [toTree, hn, Tree.plain]
    rw [ht]
    refine ⟨_, _, ?_, Tree.declarations_node_append hq [] 0 .compilationUnit none _⟩
    exact List.forall_mem_singleton.mpr rfl
  · have hnone : ([] : List Tree).all Tree.isQuiet = true := rfl
    have hscoped : Kind.isDeclaring .fileScopedNamespace = false := by decide
    let space : Tree := .node .fileScopedNamespace none
      (unit.trivia.trees ++ [.keyword "namespace", (TypeExpr.parse unit.namespaceName).toTree,
        .punct .semicolon] ++ (memberTrees unit.members ++ []))
    have ht : unit.toTree =
        .node .compilationUnit none (unit.usings.map usingTree ++ [space]) := by
      simp [toTree, hn, Tree.plain, space]
    have h := Tree.declarations_node_append unit.quiet_usings [] 0 .compilationUnit none [space]
    obtain ⟨outer, first, hk, hw⟩ := Tree.declarationsOf_wrapped hscoped unit.quiet_namespace hnone
      none (memberTrees unit.members)
      [⟨.compilationUnit, 0, 0 + Tree.lengthOf (unit.usings.map usingTree ++ [space])⟩]
      (0 + Tree.lengthOf (unit.usings.map usingTree))
    rw [ht]
    refine ⟨_, first, ?_, h.trans hw⟩
    exact List.forall_mem_cons.mpr ⟨by rw [hk]; rfl, List.forall_mem_singleton.mpr rfl⟩

end CompilationUnit

end SourceGen
