import SourceGen.Syntax.Tree
/-! Layout of program trees: which tokens start a line, how deep it is indented, and which tokens of
a line stand apart. The text of a rendered tree is that of its tokens but for blanks. -/

namespace SourceGen

/-- The text between two lines. -/
inductive NewLine where
  | lf
  | crlf
  deriving DecidableEq, Repr

def NewLine.text : NewLine → String
  | lf => "\n"
  | crlf => "\r\n"

/-- How lines are indented and ended. -/
structure Layout where
  tabSize : Nat := 4
  insertSpaces : Bool := true
  newLine : NewLine := .lf
  deriving DecidableEq, Repr

/-- The number of blanks in front of a line at a depth. -/
def Layout.indentWidth (layout : Layout) (depth : Nat) : Nat :=
  if layout.insertSpaces then layout.tabSize * depth else depth

/-- The blanks in front of a line at a depth. -/
def Layout.indentation (layout : Layout) (depth : Nat) : String :=
  String.ofList (List.replicate (layout.indentWidth depth) (if layout.insertSpaces then ' ' else '\t'))

/-- A token with its place: whether a line was asked for in front of it, whether a blank line comes
before that, how deep that line is, and whether a space is due if the token continues a line. -/
structure Piece where
  token : Token
  onNewLine : Bool
  afterBlank : Bool
  depth : Nat
  gap : Bool

/-- What the tokens laid out so far ask of the next one. -/
structure Cursor where
  depth : Nat := 0
  lineRequested : Bool := false
  blankRequested : Bool := false
  glued : Bool := false
  previous : Option Token := none

/-- Keywords directly followed by a parenthesis. -/
def callKeywords : List String :=
  ["typeof", "default", "new", "base", "this", "sizeof", "checked"]

/-- Keywords that name types. -/
def predefinedTypes : List String :=
  ["bool", "byte", "sbyte", "char", "decimal", "double", "float", "int", "uint", "long", "ulong",
    "short", "ushort", "object", "string", "nint", "nuint", "void"]

/-- Kinds that follow the token before them without a space. -/
def Kind.hugsLeft : Kind → Bool
  | .comma | .semicolon | .rightParen | .rightBracket | .dot | .colonColon | .question
  | .leftAngle | .rightAngle => true
  | _ => false

/-- Kinds that the next token follows without a space. -/
def Kind.hugsRight : Kind → Bool
  | .leftParen | .leftBracket | .leftAngle | .dot | .colonColon => true
  | _ => false

/-- Whether an opening parenthesis follows a token without a space. -/
def Token.takesParen (token : Token) : Bool :=
  match token.kind with
  | .identifier | .rightAngle => true
  | .keyword => callKeywords.contains token.text
  | _ => false

/-- Whether an opening bracket follows a token without a space. -/
def Token.takesBracket (token : Token) : Bool :=
  match token.kind with
  | .identifier | .question | .rightAngle | .rightBracket | .rightParen => true
  | .keyword => predefinedTypes.contains token.text || token.text == "this"
  | _ => false

/-- Whether a space separates a token of the given kind from the one before it. -/
def needsSpace (previous : Option Token) (current : Kind) : Bool :=
  match previous with
  | none => false
  | some token =>
    if current.hugsLeft || token.kind.hugsRight then false
    else
      match current with
      | .leftParen => !token.takesParen
      | .leftBracket => !token.takesBracket
      | _ => true

namespace Cursor

/-- Asks for a line in front of the next token. -/
def requestLine (cursor : Cursor) : Cursor :=
  { cursor with lineRequested := true }

/-- Asks, on a condition, for a line in front of the next token. -/
def requestLineIf (condition : Bool) (cursor : Cursor) : Cursor :=
  if condition then cursor.requestLine else cursor

/-- Asks, on a condition, for no space in front of the next token. -/
def glueIf (condition : Bool) (cursor : Cursor) : Cursor :=
  if condition then { cursor with glued := true } else cursor

/-- The piece that a token becomes here. -/
def piece (cursor : Cursor) (token : Token) : Piece :=
  ⟨token, cursor.lineRequested, cursor.blankRequested, cursor.depth,
    !cursor.glued && needsSpace cursor.previous token.kind⟩

/-- The cursor after a token; what was asked of it is done. -/
def advance (cursor : Cursor) (token : Token) : Cursor :=
  { depth := cursor.depth, previous := some token }

def deeper (cursor : Cursor) : Cursor :=
  { cursor with depth := cursor.depth + 1 }

def shallower (cursor : Cursor) : Cursor :=
  { cursor with depth := cursor.depth - 1 }

end Cursor

def Tree.isAccessorBody (tree : Tree) : Bool :=
  tree.isNode && (tree.kind == .block || tree.kind == .arrowExpressionClause)

/-- Whether an accessor list has no accessor with a body, so that it stays on one line. -/
def isInlineAccessorList (children : List Tree) : Bool :=
  children.all fun accessor => accessor.children.all fun child => !child.isAccessorBody

/-- What the layout of a child depends on in its parent. -/
structure Frame where
  kind : Kind
  inlineAccessors : Bool

namespace Frame

/-- The frame that a node is to its children. -/
def ofNode (kind : Kind) (children : List Tree) : Frame :=
  ⟨kind, kind == .accessorList && isInlineAccessorList children⟩

/-- The frame of a token that stands alone. -/
def alone : Frame := ⟨.compilationUnit, false⟩

/-- Whether the braces of the node stand on lines of their own. -/
def isBlock (frame : Frame) : Bool :=
  match frame.kind with
  | .block | .memberList | .switchArmList | .enumMemberList => true
  | .accessorList => !frame.inlineAccessors
  | _ => false

/-- Whether blank lines separate the members of the node. -/
def separatesMembers (frame : Frame) : Bool :=
  match frame.kind with
  | .compilationUnit | .fileScopedNamespace | .memberList => true
  | _ => false

end Frame

/-- Whether a node of the given kind starts a line under its parent. -/
def startsLine (parent : Option Frame) (kind : Kind) : Bool :=
  if kind.isMemberDeclaration || kind.isStatement then true
  else
    match kind with
    | .usingDirective | .fileScopedNamespace | .namespaceDeclaration | .switchArm
    | .leadingTrivia => true
    | .accessorDeclaration => parent.any fun frame => !frame.inlineAccessors
    | .attributeList => parent.any fun frame => frame.kind.isMemberDeclaration
    | _ => false

namespace Frame

/-- Whether a child is a node that starts a line among members. -/
def isLineChild (frame : Frame) (child : Tree) : Bool :=
  child.isNode && frame.separatesMembers && startsLine (some frame) child.kind

/-- Whether a blank line separates a member from the one before it. Using directives stand
together; a first member is set apart from a namespace only. -/
def wantsBlank (frame : Frame) (before : Option Kind) (kind : Kind) : Bool :=
  match before with
  | some previous => !(previous == .usingDirective && kind == .usingDirective)
  | none => frame.kind == .fileScopedNamespace

/-- The cursor in front of a child, given the last member before it. -/
def enter (frame : Frame) (before : Option Kind) (child : Tree) (cursor : Cursor) : Cursor :=
  let blank := frame.isLineChild child && frame.wantsBlank before child.kind
  let spaced := { cursor with blankRequested := cursor.blankRequested || blank }
  spaced.glueIf <| child.isNode && child.kind == .parameterList &&
    (frame.kind == .operatorDeclaration || frame.kind == .conversionOperatorDeclaration)

/-- The cursor behind a child. -/
def leave (frame : Frame) (child : Tree) (cursor : Cursor) : Cursor :=
  cursor.requestLineIf <| child.isNode && child.kind == .attributeList &&
    frame.kind.isMemberDeclaration

/-- The last member up to and including a child. -/
def lastLine (frame : Frame) (before : Option Kind) (child : Tree) : Option Kind :=
  if frame.isLineChild child then some child.kind else before

/-- Whether a token follows the one before it without a space because of its parent. -/
def gluesBefore (frame : Frame) (isLast : Bool) (kind : Kind) : Bool :=
  match frame.kind with
  | .postfixUnary => isLast
  | .type => kind == .star
  | .attributeTarget => kind == .colon
  | _ => false

/-- Whether the next token follows a token without a space because of that token's parent. -/
def gluesAfter (frame : Frame) (isFirst : Bool) (kind : Kind) : Bool :=
  match frame.kind with
  | .prefixUnary => isFirst
  | .cast => kind == .rightParen
  | _ => false

/-- Lays out one token of a node. -/
def placeToken (frame : Frame) (isFirst isLast : Bool) (token : Token) (cursor : Cursor) :
    Cursor × List Piece :=
  if token.kind = .leftBrace ∧ frame.isBlock then
    let ready := cursor.requestLine
    ((ready.advance token).deeper, [ready.piece token])
  else if token.kind = .rightBrace ∧ frame.isBlock then
    let ready := cursor.shallower.requestLine
    (ready.advance token, [ready.piece token])
  else if token.kind = .lineComment ∨ token.kind = .docComment ∨ token.kind = .directive then
    let ready := cursor.requestLineIf (frame.kind == .leadingTrivia)
    ((ready.advance token).requestLine, [ready.piece token])
  else
    let ready := cursor.glueIf (frame.gluesBefore isLast token.kind)
    ((ready.advance token).glueIf (frame.gluesAfter isFirst token.kind), [ready.piece token])

end Frame

namespace Tree

mutual

/-- Lays out a tree under its parent, as the first or last child or neither. -/
def place (parent : Option Frame) (isFirst isLast : Bool) :
    Tree → Cursor → Cursor × List Piece
  | leaf token, cursor => (parent.getD Frame.alone).placeToken isFirst isLast token cursor
  | node kind _ children, cursor =>
    placeAll (Frame.ofNode kind children) true none children
      (cursor.requestLineIf (startsLine parent kind))

/-- Lays out the children of a node from one of them on. -/
def placeAll (frame : Frame) (isFirst : Bool) (before : Option Kind) :
    List Tree → Cursor → Cursor × List Piece
  | [], cursor => (cursor, [])
  | child :: rest, cursor =>
    let inside := place (some frame) isFirst rest.isEmpty child (frame.enter before child cursor)
    let behind :=
      placeAll frame false (frame.lastLine before child) rest (frame.leave child inside.1)
    (behind.1, inside.2 ++ behind.2)

end

/-- The tokens of a tree with their places. -/
def pieces (tree : Tree) : List Piece :=
  (tree.place none true true {}).2

end Tree

namespace Layout

/-- The blanks in front of a piece, given whether anything is written before it. -/
def blanks (layout : Layout) (written : Bool) (piece : Piece) : String :=
  if piece.onNewLine && written then
    layout.newLine.text ++ (if piece.afterBlank then layout.newLine.text else "") ++
      layout.indentation piece.depth
  else if piece.gap then " "
  else ""

/-- The text with a piece added to it. -/
def write (layout : Layout) (text : String) (piece : Piece) : String :=
  text ++ layout.blanks (!text.isEmpty) piece ++ piece.token.text

def ended (layout : Layout) (text : String) : String :=
  if text.endsWith layout.newLine.text then text else text ++ layout.newLine.text

/-- A bound on the number of blanks in front of a line. -/
def maxIndent : Nat := 1 <<< 63

/-- Whether every line of the tree can be indented. -/
def fits (layout : Layout) (tree : Tree) : Bool :=
  tree.pieces.all fun piece => !piece.onNewLine || layout.indentWidth piece.depth < maxIndent

end Layout

/-- The lines at the top of every generated file. -/
def generatedHeader : List String :=
  [ "// Copyright (c) DGP Studio. All rights reserved.",
    "// Licensed under the MIT license.",
    "",
    "#pragma warning disable CS1591",
    "#pragma warning disable SA1003, SA1009, SA1010, SA1013, SA1027, SA1028",
    "#pragma warning disable SA1101, SA1106, SA1117, SA1122, SA1128",
    "#pragma warning disable SA1201, SA1202, SA1205",
    "#pragma warning disable SA1413",
    "#pragma warning disable SA1514, SA1516",
    "#pragma warning disable SA1623, SA1629, SA1649" ]

namespace Tree

/-- The tree as source text, ending with a line break. -/
def render (layout : Layout) (tree : Tree) : String :=
  layout.ended (tree.pieces.foldl layout.write "")

/-- The text with a piece added to its only line. -/
def inlineWrite (text : String) (piece : Piece) : String :=
  text ++ (if piece.gap then " " else "") ++ piece.token.text

def inline (tree : Tree) : String :=
  tree.pieces.foldl inlineWrite ""

/-- A complete generated file: the header, a blank line and the tree. -/
def document (layout : Layout) (tree : Tree) : String :=
  String.join (generatedHeader.map (· ++ layout.newLine.text)) ++ layout.newLine.text ++
    tree.render layout

end Tree

end SourceGen
