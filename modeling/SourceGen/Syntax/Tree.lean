import SourceGen.Syntax.Token
/-! Program trees: tokens under nodes, and the positions of the nodes. -/

namespace SourceGen

/-- A name for a node, by which facts about the node can be recorded before its tree is complete. -/
inductive Anchor where
  | declaration (place : List Nat)
  | expression (number : Nat)
  deriving DecidableEq, Repr

/-- A program tree. Its tokens hold the text; layout is decided when the tree is rendered. -/
inductive Tree where
  | leaf (token : Token)
  | node (kind : Kind) (anchor : Option Anchor) (children : List Tree)

/-- The kind of a node, its first byte in the text of the tree, and the byte after its last. -/
structure Span where
  kind : Kind
  start : Nat
  stop : Nat
  deriving DecidableEq, Repr

namespace Tree

/-- A node without a name. -/
def plain (kind : Kind) (children : List Tree) : Tree :=
  .node kind none children

def punct (kind : Kind) : Tree :=
  .leaf (.punct kind)

def ident (text : String) : Tree :=
  .leaf (.ident text)

def keyword (text : String) : Tree :=
  .leaf (.keyword text)

/-- The trees with a comma between them. -/
def separated : List Tree → List Tree
  | [] => []
  | [item] => [item]
  | item :: items => item :: punct .comma :: separated items

/-- The trees, separated by commas, between an opening and a closing token. -/
def enclosed (opening closing : Kind) (items : List Tree) : List Tree :=
  punct opening :: separated items ++ [punct closing]

def kind : Tree → Kind
  | leaf token => token.kind
  | node kind _ _ => kind

def children : Tree → List Tree
  | leaf _ => []
  | node _ _ children => children

def isNode : Tree → Bool
  | leaf _ => false
  | node _ _ _ => true

/-- The tree with another name at its root. -/
def anchored (anchor : Anchor) : Tree → Tree
  | leaf token => leaf token
  | node kind _ children => node kind (some anchor) children

mutual

/-- The tokens of a tree from left to right. -/
def leaves : Tree → List Token
  | leaf token => [token]
  | node _ _ children => leavesOf children

/-- The tokens of several trees from left to right. -/
def leavesOf : List Tree → List Token
  | [] => []
  | tree :: trees => tree.leaves ++ leavesOf trees

end

mutual

/-- The number of bytes in the text of a tree. -/
def length : Tree → Nat
  | leaf token => token.text.utf8ByteSize
  | node _ _ children => lengthOf children

/-- The number of bytes in the texts of several trees. -/
def lengthOf : List Tree → Nat
  | [] => 0
  | tree :: trees => tree.length + lengthOf trees

end

/-- The trees that follow each other from a position on, each with its position. -/
def placed (start : Nat) : List Tree → List (Nat × Tree)
  | [] => []
  | tree :: trees => (start, tree) :: placed (start + tree.length) trees

end Tree

/-- A node within a tree: where it is, what it consists of, and the nodes around it from the
innermost outwards. -/
structure Site where
  span : Span
  anchor : Option Anchor
  children : List Tree
  enclosing : List Span

namespace Site

def kind (site : Site) : Kind :=
  site.span.kind

def toTree (site : Site) : Tree :=
  .node site.kind site.anchor site.children

/-- The children of the node, each with its position. -/
def placedChildren (site : Site) : List (Nat × Tree) :=
  Tree.placed site.span.start site.children

def childNodes (site : Site) : List (Span × Tree) :=
  site.placedChildren.filterMap fun (start, tree) =>
    if tree.isNode then some (⟨tree.kind, start, start + tree.length⟩, tree) else none

def childTokens (site : Site) : List (Nat × Token) :=
  site.placedChildren.filterMap fun
    | (start, .leaf token) => some (start, token)
    | _ => none

end Site

namespace Tree

mutual

/-- The nodes of a tree in preorder. -/
def sites (enclosing : List Span) (start : Nat) : Tree → List Site
  | leaf _ => []
  | node kind anchor children =>
    let span := ⟨kind, start, start + lengthOf children⟩
    ⟨span, anchor, children, enclosing⟩ :: sitesOf (span :: enclosing) start children

/-- The nodes of several trees that follow each other, in preorder. -/
def sitesOf (enclosing : List Span) (start : Nat) : List Tree → List Site
  | [] => []
  | tree :: trees =>
    sites enclosing start tree ++ sitesOf enclosing (start + tree.length) trees

end

/-- The nodes of a whole tree in preorder. -/
def descendants (tree : Tree) : List Site :=
  tree.sites [] 0

end Tree

end SourceGen
