import SourceGen.Proofs.Syntax.Reading
import SourceGen.Proofs.Syntax.Rendering
import SourceGen.Proofs.Syntax.TypeText

/-! The spaces between the tokens of a tree that is written on one line. A token stands apart
depending on the token in front of it, unless the node around one of them glues them together. -/

namespace SourceGen

/-- A piece as an entry of a row. -/
def Piece.entry (piece : Piece) : Bool × Token :=
  (piece.gap, piece.token)

theorem Tree.inline_eq (tree : Tree) :
    tree.inline = String.ofList (Token.written (tree.pieces.map Piece.entry)) := by
  have hfold (pieces : List Piece) (text : String) :
      pieces.foldl inlineWrite text =
        text ++ String.ofList (Token.written (pieces.map Piece.entry)) := by
    induction pieces generalizing text with
    | nil => simp [Token.written]
    | cons piece pieces ih =>
      rw [List.foldl_cons, ih, inlineWrite, List.map_cons, Piece.entry, Token.written]
      cases piece.gap <;> simp [String.ofList_append, String.append_assoc]
  rw [inline, hfold, String.empty_append]

/-- A tree is read from its text as the tokens it consists of exactly if each of them ends where it
is written to end. -/
theorem Tree.inline_tokens_iff {tree : Tree} (h : ∀ token ∈ tree.leaves, token.IsReadAlone) :
    (Token.significant tree.inline).map (·.text) = tree.leaves.map (·.text) ↔
      Token.Reads (tree.pieces.map Piece.entry) [] := by
  have htokens : tree.pieces.map (·.token) = tree.leaves := tree.pieces_tokens
  have htexts : (tree.pieces.map Piece.entry).map (·.2.text) = tree.leaves.map (·.text) := by
    rw [← htokens, List.map_map, List.map_map]
    rfl
  have hentries : ∀ entry ∈ tree.pieces.map Piece.entry, ∃ first more,
      entry.2.text.toList = first :: more ∧ Token.isSpace first = false := by
    intro entry hm
    obtain ⟨piece, hpiece, rfl⟩ := List.mem_map.mp hm
    exact (h _ (htokens ▸ List.mem_map_of_mem hpiece)).not_isSpace
  rw [Tree.inline_eq, ← htexts]
  exact Token.significant_written_iff hentries

section Layout

/-- The kinds of the nodes that operations consist of. -/
def Kind.operationNodes : List Kind :=
  [.identifierName, .literal, .memberAccess, .invocation, .argumentList, .argument, .cast,
    .parenthesized, .prefixUnary, .postfixUnary, .binary, .type]

/-- Whether trees in a node, behind a token or none, become the entries of a row, and what the token
behind them finds: whether it is glued to them, and the last of their tokens. -/
def Lays (frame : Frame) (isFirst : Bool) (trees : List Tree) (start : Bool × Option Token)
    (row : List (Bool × Token)) (finish : Bool × Option Token) : Prop :=
  ∀ before cursor, (cursor.glued, cursor.previous) = start →
    (Tree.placeAll frame isFirst before trees cursor).2.map Piece.entry = row ∧
      ((Tree.placeAll frame isFirst before trees cursor).1.glued,
        (Tree.placeAll frame isFirst before trees cursor).1.previous) = finish

/-- Whether a tree becomes the entries of a row, wherever it stands. -/
def Tree.Becomes (tree : Tree) (start : Bool × Option Token) (row : List (Bool × Token))
    (finish : Bool × Option Token) : Prop :=
  ∀ parent isFirst isLast cursor, (cursor.glued, cursor.previous) = start →
    (tree.place parent isFirst isLast cursor).2.map Piece.entry = row ∧
      ((tree.place parent isFirst isLast cursor).1.glued,
        (tree.place parent isFirst isLast cursor).1.previous) = finish

variable {frame : Frame} {isFirst glued : Bool} {previous : Option Token} {trees : List Tree}
  {row : List (Bool × Token)} {finish : Bool × Option Token}

theorem Lays.nil : Lays frame isFirst [] (glued, previous) [] (glued, previous) := by
  intro before cursor hcursor
  rw [Tree.placeAll]
  exact ⟨rfl, hcursor⟩

private theorem enter_eq (hframe : frame.kind ∈ Kind.operationNodes) (before : Option Kind)
    (tree : Tree) (cursor : Cursor) :
    (frame.enter before tree cursor).glued = cursor.glued ∧
      (frame.enter before tree cursor).previous = cursor.previous := by
  have hoperator : (frame.kind == .operatorDeclaration ||
      frame.kind == .conversionOperatorDeclaration) = false := by
    have hnodes : ∀ kind ∈ Kind.operationNodes, (kind == .operatorDeclaration ||
        kind == .conversionOperatorDeclaration) = false := by decide
    exact hnodes _ hframe
  simp [Frame.enter, hoperator, Cursor.glueIf]

private theorem leave_eq (frame : Frame) (tree : Tree) (cursor : Cursor) :
    (frame.leave tree cursor).glued = cursor.glued ∧
      (frame.leave tree cursor).previous = cursor.previous := by
  rw [Frame.leave, Cursor.requestLineIf]
  split <;> exact ⟨rfl, rfl⟩

private theorem placeToken_inline (hframe : frame.kind ∈ Kind.operationNodes) {token : Token}
    (htoken : token.kind.endsLine = false) (isFirst isLast : Bool) (cursor : Cursor) :
    frame.placeToken isFirst isLast token cursor =
      (((cursor.glueIf (frame.gluesBefore isLast token.kind)).advance token).glueIf
          (frame.gluesAfter isFirst token.kind),
        [(cursor.glueIf (frame.gluesBefore isLast token.kind)).piece token]) := by
  have hblock : frame.isBlock = false := by
    simp only [Kind.operationNodes, List.mem_cons, List.not_mem_nil, or_false] at hframe
    unfold Frame.isBlock
    rcases hframe with h | h | h | h | h | h | h | h | h | h | h | h <;> rw [h]
  have hline : ¬(token.kind = .lineComment ∨ token.kind = .docComment ∨ token.kind = .directive) := by
    rintro (h | h | h) <;> (rw [h] at htoken; cases htoken)
  rw [Frame.placeToken, if_neg (by simp [hblock]), if_neg (by simp [hblock]), if_neg hline]

theorem Lays.token (hframe : frame.kind ∈ Kind.operationNodes) {token : Token}
    (htoken : token.kind.endsLine = false)
    (h : Lays frame false trees (frame.gluesAfter isFirst token.kind, some token) row finish) :
    Lays frame isFirst (.leaf token :: trees) (glued, previous)
      ((!(glued || frame.gluesBefore trees.isEmpty token.kind) && needsSpace previous token.kind,
        token) :: row) finish := by
  intro before cursor hcursor
  obtain ⟨rfl, rfl⟩ := Prod.mk.inj hcursor
  obtain ⟨hglued, hprevious⟩ := enter_eq hframe before (.leaf token) cursor
  rw [Tree.placeAll, Tree.place, Option.getD_some, placeToken_inline hframe htoken]
  dsimp only
  generalize hready : (frame.enter before (.leaf token) cursor).glueIf
    (frame.gluesBefore trees.isEmpty token.kind) = ready
  have hstate : ready.glued = (cursor.glued || frame.gluesBefore trees.isEmpty token.kind) ∧
      ready.previous = cursor.previous := by
    rw [← hready, Cursor.glueIf, ← hglued, ← hprevious]
    split <;> simp_all
  have hnext : ((ready.advance token).glueIf (frame.gluesAfter isFirst token.kind)).glued =
        frame.gluesAfter isFirst token.kind ∧
      ((ready.advance token).glueIf (frame.gluesAfter isFirst token.kind)).previous =
        some token := by
    rw [Cursor.glueIf]
    split <;> simp_all [Cursor.advance]
  obtain ⟨hleft, hlast⟩ := leave_eq frame (.leaf token)
    ((ready.advance token).glueIf (frame.gluesAfter isFirst token.kind))
  obtain ⟨hrow, hfinish⟩ := h (frame.lastLine before (.leaf token)) (frame.leave (.leaf token)
    ((ready.advance token).glueIf (frame.gluesAfter isFirst token.kind)))
    (by rw [hleft, hlast, hnext.1, hnext.2])
  refine ⟨?_, hfinish⟩
  rw [List.map_append, hrow, List.map_cons, Piece.entry, Cursor.piece, hstate.1, hstate.2]
  rfl

/-- The kinds of the nodes in which no token is glued to another. -/
def Kind.looseNodes : List Kind :=
  [.identifierName, .literal, .memberAccess, .invocation, .argumentList, .argument, .parenthesized,
    .binary]

theorem Lays.loose (hframe : frame.kind ∈ Kind.looseNodes) {token : Token}
    (htoken : token.kind.endsLine = false)
    (h : Lays frame false trees (false, some token) row finish) :
    Lays frame isFirst (.leaf token :: trees) (glued, previous)
      ((!glued && needsSpace previous token.kind, token) :: row) finish := by
  have hnodes : ∀ kind ∈ Kind.looseNodes, kind ∈ Kind.operationNodes ∧ kind ≠ .postfixUnary ∧
      kind ≠ .type ∧ kind ≠ .attributeTarget ∧ kind ≠ .prefixUnary ∧ kind ≠ .cast := by decide
  obtain ⟨hnode, hpostfix, htype, htarget, hprefix, hcast⟩ := hnodes _ hframe
  have hafter : frame.gluesAfter isFirst token.kind = false := by
    unfold Frame.gluesAfter
    split <;> simp_all
  have hbefore : frame.gluesBefore trees.isEmpty token.kind = false := by
    unfold Frame.gluesBefore
    split <;> simp_all
  have hlays : Lays frame isFirst (.leaf token :: trees) (glued, previous) _ finish :=
    Lays.token hnode htoken (by rwa [hafter])
  rwa [hbefore, Bool.or_false] at hlays

theorem Lays.tree (hframe : frame.kind ∈ Kind.operationNodes) {tree : Tree}
    {start middle : Bool × Option Token} {inside : List (Bool × Token)}
    (htree : tree.Becomes start inside middle) (h : Lays frame false trees middle row finish) :
    Lays frame isFirst (tree :: trees) start (inside ++ row) finish := by
  intro before cursor hcursor
  obtain ⟨hglued, hprevious⟩ := enter_eq hframe before tree cursor
  obtain ⟨hinside, hmiddle⟩ := htree (some frame) isFirst trees.isEmpty
    (frame.enter before tree cursor) (by rw [hglued, hprevious, hcursor])
  generalize hplaced : tree.place (some frame) isFirst trees.isEmpty
    (frame.enter before tree cursor) = placed at hinside hmiddle
  obtain ⟨hleft, hlast⟩ := leave_eq frame tree placed.1
  obtain ⟨hrow, hfinish⟩ := h (frame.lastLine before tree) (frame.leave tree placed.1)
    (by rw [hleft, hlast, hmiddle])
  rw [Tree.placeAll, hplaced]
  exact ⟨by rw [List.map_append, hinside, hrow], hfinish⟩

/-- A node becomes what its children become. -/
theorem Lays.node {kind : Kind} {start : Bool × Option Token}
    (h : Lays (Frame.ofNode kind trees) true trees start row finish) :
    (Tree.plain kind trees).Becomes start row finish := by
  intro parent isFirst isLast cursor hcursor
  rw [Tree.plain, Tree.place]
  refine h none _ ?_
  rw [← hcursor, Cursor.requestLineIf]
  split <;> rfl

end Layout

section Types

/-- Whether a token goes on with the tokens of a type that are written right behind it. Digits go on
with a fraction. -/
def Token.runsInto (token next : Token) (tokens : List Token) : Bool :=
  token.kind.isContinuedBy next.kind ||
    (token.kind == .numericLiteral && token.text.toList.all isDigitOrSeparator &&
      next.kind == .dot && tokens.head?.any (·.kind == .numericLiteral))

/-- Whether no token of a type is written right in front of what it goes on with. -/
def Token.stayApart : List Token → Bool
  | token :: next :: tokens =>
    (next.apartInType (some token) || !token.runsInto next tokens) && stayApart (next :: tokens)
  | _ => true

def TypeExpr.staysApart (type : TypeExpr) : Bool :=
  Token.stayApart type.toTree.leaves

/-- The entries that the tokens of a type become behind a token or none. -/
def typeRow (previous : Option Token) : List Token → List (Bool × Token)
  | [] => []
  | token :: tokens => (token.apartInType previous, token) :: typeRow (some token) tokens

theorem typeRow_append (previous : Option Token) (tokens others : List Token) :
    typeRow previous (tokens ++ others) =
      typeRow previous tokens ++ typeRow (tokens.getLast?.or previous) others := by
  induction tokens generalizing previous with
  | nil => rfl
  | cons token tokens ih =>
    rw [List.cons_append, typeRow, ih, typeRow, List.getLast?_cons]
    cases tokens.getLast? <;> rfl

theorem typeRow_tokens (previous : Option Token) (tokens : List Token) :
    (typeRow previous tokens).map (·.2) = tokens := by
  induction tokens generalizing previous with
  | nil => rfl
  | cons token tokens ih => rw [typeRow, List.map_cons, ih]

/-- Whether trees in a type become the entries of its tokens, whatever stands behind them. -/
def LaysType (trees : List Tree) : Prop :=
  ∀ ⦃frame : Frame⦄ ⦃previous : Option Token⦄ ⦃others : List Tree⦄ ⦃row : List (Bool × Token)⦄
    ⦃finish : Bool × Option Token⦄, frame.kind = .type →
    (∀ isFirst, Lays frame isFirst others
      (false, (Tree.leavesOf trees).getLast?.or previous) row finish) →
    ∀ isFirst, Lays frame isFirst (trees ++ others) (false, previous)
      (typeRow previous (Tree.leavesOf trees) ++ row) finish

theorem LaysType.nil : LaysType [] := fun _ _ _ _ _ _ h => h

theorem LaysType.append {trees others : List Tree} (h : LaysType trees) (hothers : LaysType others) :
    LaysType (trees ++ others) := by
  intro frame previous more row finish hframe hmore isFirst
  rw [Tree.leavesOf_append, typeRow_append, List.append_assoc, List.append_assoc]
  refine h hframe (hothers hframe fun isFirst => ?_) isFirst
  have hlast := hmore isFirst
  rwa [Tree.leavesOf_append, List.getLast?_append, Option.or_assoc] at hlast

theorem LaysType.leaf {token : Token} (h : token.kind.endsLine = false) : LaysType [.leaf token] := by
  intro frame previous others row finish hframe hothers isFirst
  have hnode : frame.kind ∈ Kind.operationNodes := by rw [hframe]; decide
  have hafter : frame.gluesAfter isFirst token.kind = false := by simp [Frame.gluesAfter, hframe]
  have hbefore : frame.gluesBefore others.isEmpty token.kind = (token.kind == .star) := by
    simp [Frame.gluesBefore, hframe]
  have hlays : Lays frame isFirst (.leaf token :: others) (false, previous) _ finish :=
    Lays.token hnode h (by rw [hafter]; exact hothers false)
  rwa [hbefore, Bool.false_or] at hlays

/-- The node of a type becomes the entries of its tokens. -/
theorem LaysType.node {parts : List Tree} (h : LaysType parts) (previous : Option Token) :
    (Tree.plain .type parts).Becomes (false, previous) (typeRow previous (Tree.leavesOf parts))
      (false, (Tree.leavesOf parts).getLast?.or previous) := by
  have hlays : Lays (Frame.ofNode .type parts) true (parts ++ []) (false, previous) _ _ :=
    h rfl (fun _ => Lays.nil) true
  rw [List.append_nil, List.append_nil] at hlays
  exact Lays.node hlays

theorem LaysType.type {parts : List Tree} (h : LaysType parts) : LaysType [.plain .type parts] := by
  intro frame previous others row finish hframe hothers isFirst
  have hleaves : Tree.leavesOf [.plain .type parts] = Tree.leavesOf parts := by
    simp [Tree.leavesOf, Tree.plain, Tree.leaves]
  rw [hleaves] at hothers ⊢
  exact Lays.tree (by rw [hframe]; decide) (h.node previous) (hothers false)

theorem LaysType.leaves {tokens : List Token}
    (h : ∀ token ∈ tokens, token.kind.endsLine = false) : LaysType (tokens.map Tree.leaf) := by
  induction tokens with
  | nil => exact LaysType.nil
  | cons token tokens ih =>
    obtain ⟨htoken, htokens⟩ := List.forall_mem_cons.mp h
    exact (LaysType.leaf htoken).append (ih htokens)

mutual

theorem TypeExpr.laysType_parts :
    (type : TypeExpr) → (∀ token ∈ Tree.leavesOf type.parts, token.kind.endsLine = false) →
      LaysType type.parts
  | .tokens list, h => by
    rw [parts, Tree.leavesOf_leaf] at h
    exact LaysType.leaves h
  | .generic name arguments, h => by
    rw [parts, Tree.leavesOf_append, Tree.leavesOf_leaf, List.forall_mem_append, Tree.enclosed,
      Tree.leavesOf_append, List.forall_mem_append] at h
    obtain ⟨hname, harguments, -⟩ := h
    have hseparated := TypeExpr.laysType_separated arguments
      fun token hm => harguments token (List.mem_cons_of_mem _ hm)
    exact (LaysType.leaves hname).append
      (((LaysType.leaf rfl).append hseparated).append (LaysType.leaf rfl))
  | .suffixed type suffix, h => by
    rw [parts, Tree.leavesOf_append, List.forall_mem_append] at h
    have hsuffix : suffix.kinds.map Tree.punct = (suffix.kinds.map Token.punct).map Tree.leaf := by
      rw [List.map_map]
      rfl
    rw [parts, hsuffix]
    refine (TypeExpr.laysType_parts type h.1).append (LaysType.leaves ?_)
    rw [hsuffix, Tree.leavesOf_leaf] at h
    exact h.2

theorem TypeExpr.laysType_separated :
    (types : List TypeExpr) →
      (∀ token ∈ Tree.leavesOf (Tree.separated (treesOf types)), token.kind.endsLine = false) →
      LaysType (Tree.separated (treesOf types))
  | [], _ => LaysType.nil
  | [type], h => by
    have hparts : ∀ token ∈ Tree.leavesOf type.parts, token.kind.endsLine = false :=
      fun token hm => h token (List.mem_append_left _ hm)
    exact (TypeExpr.laysType_parts type hparts).type
  | type :: next :: types, h => by
    have hparts : ∀ token ∈ Tree.leavesOf type.parts, token.kind.endsLine = false :=
      fun token hm => h token (List.mem_append_left _ hm)
    have hrest := TypeExpr.laysType_separated (next :: types)
      fun token hm => h token (List.mem_append_right _ (List.mem_cons_of_mem _ hm))
    exact (TypeExpr.laysType_parts type hparts).type.append ((LaysType.leaf rfl).append hrest)

end

theorem endsLine_of_isReadAlone {token : Token} (h : token.IsReadAlone) :
    token.kind.endsLine = false := by
  have htrivia := h.not_isTrivia
  cases hkind : token.kind <;> simp_all [Kind.isTrivia, Kind.endsLine]

/-- Wherever a type stands without being glued, it becomes the entries of its tokens. -/
theorem TypeExpr.becomes {type : TypeExpr} (h : ∀ token ∈ type.toTree.leaves, token.IsReadAlone)
    (previous : Option Token) :
    type.toTree.Becomes (false, previous) (typeRow previous type.toTree.leaves)
      (false, type.toTree.leaves.getLast?.or previous) :=
  (type.laysType_parts fun token hm => endsLine_of_isReadAlone (h token hm)).node previous

/-- The kinds of the tokens that stand right behind a word or literal of a type. -/
private def Kind.closeKinds : List Kind :=
  [.star, .comma, .semicolon, .rightParen, .rightBracket, .dot, .colonColon, .question, .leftAngle,
    .rightAngle, .leftParen, .leftBracket]

private theorem mem_closeKinds {token next : Token} (h : token.kind.spelling = "")
    (hnext : next.apartInType (some token) = false) : next.kind ∈ Kind.closeKinds := by
  have hright {kind : Kind} (h : kind.spelling = "") : kind.hugsRight = false := by
    unfold Kind.hugsRight
    split <;> first | rfl | exact absurd h (by decide)
  have hleft {kind : Kind} (h : kind ∉ Kind.closeKinds) : kind.hugsLeft = false := by
    unfold Kind.hugsLeft
    split <;> first | rfl | exact absurd (by decide) h
  by_contra hclose
  have hopen : next.kind ≠ .leftParen ∧ next.kind ≠ .leftBracket ∧ next.kind ≠ .star := by
    refine ⟨?_, ?_, ?_⟩ <;> (intro hk; rw [hk] at hclose; exact hclose (by decide))
  simp [Token.apartInType, needsSpace, hleft hclose, hright h, hopen] at hnext

private theorem continues_of_spelling {kind : Kind} (h : kind.spelling = "") {c : Char}
    (hword : Token.isWordPart c = false) (hdigit : Token.isDigitOrSeparator c = false)
    (hletter : c.isAlpha = false) : kind.continues c = false := by
  unfold Kind.continues
  split <;> first | exact absurd h (by decide) | simp only [hword, hdigit, hletter, Bool.or_self]

/-- No word and no literal goes on with one of these tokens. -/
private theorem continues_closeKinds {kind next : Kind} (h : kind.spelling = "")
    (hnext : next ∈ Kind.closeKinds) :
    next.spelling ≠ "" ∧ ∃ first more, next.spelling.toList = first :: more ∧
      kind.continues first = false ∧ (next ≠ .dot → first ≠ '.') := by
  have hclose : ∀ next ∈ Kind.closeKinds, next.spelling ≠ "" ∧
      next.spelling.toList.head?.all (fun c => !Token.isWordPart c &&
        !Token.isDigitOrSeparator c && !c.isAlpha && (next == .dot || c != '.')) = true := by decide
  obtain ⟨hspelling, hhead⟩ := hclose _ hnext
  obtain ⟨first, more, hfirst⟩ := List.exists_cons_of_ne_nil
    (show next.spelling.toList ≠ [] by simpa using hspelling)
  simp only [hfirst, List.head?_cons, Option.all_some, Bool.and_eq_true, Bool.not_eq_true'] at hhead
  obtain ⟨⟨⟨hword, hdigit⟩, hletter⟩, hpoint⟩ := hhead
  refine ⟨hspelling, first, more, hfirst, continues_of_spelling h hword hdigit hletter, ?_⟩
  exact fun hdot => by simpa [hdot] using hpoint

namespace Token

private theorem fractionLength_of_head {chars : List Char} (h : chars.head? ≠ some '.') :
    fractionLength chars = 0 := by
  unfold fractionLength
  split
  · exact absurd rfl h
  · rfl

/-- What is written behind a dot of a type is a fraction if it starts with a number. -/
private theorem fraction_typeRow {dot : Token} (hdot : dot.kind = .dot) {tokens : List Token}
    (h : ∀ token ∈ tokens, token.IsReadAlone) :
    (∃ digit rest, written (typeRow (some dot) tokens) = digit :: rest ∧ digit.isDigit = true) ∧
        tokens.head?.any (·.kind == .numericLiteral) = true ∨
      fractionLength ('.' :: written (typeRow (some dot) tokens)) = 0 ∧
        tokens.head?.any (·.kind == .numericLiteral) = false := by
  cases tokens with
  | nil => exact .inr ⟨rfl, rfl⟩
  | cons token tokens =>
    obtain ⟨first, more, htext, hdigit⟩ := (h token (List.mem_cons_self ..)).head_isDigit
    have hgap : token.apartInType (some dot) = false := by
      simp [apartInType, needsSpace, hdot, Kind.hugsRight]
    have hwritten : written (typeRow (some dot) (token :: tokens)) =
        first :: (more ++ written (typeRow (some token) tokens)) := by
      rw [typeRow, written, hgap, htext]
      rfl
    rw [hwritten, List.head?_cons, Option.any_some, beq_eq_decide]
    by_cases hnumber : token.kind = .numericLiteral
    · exact .inl ⟨⟨first, _, rfl, hdigit.mpr hnumber⟩, by simp [hnumber]⟩
    · have hfirst : first.isDigit = false := by
        rw [← Bool.not_eq_true, hdigit]
        exact hnumber
      exact .inr ⟨by simp [fractionLength, hfirst], by simp [hnumber]⟩

/-- A token of a type is read up to its end unless it goes on with the ones written behind it. -/
private theorem IsReadAlone.endsBefore_typeRow {token next : Token} (h : token.IsReadAlone)
    (hnext : next.IsReadAlone) {tokens : List Token} (htokens : ∀ token ∈ tokens, token.IsReadAlone) :
    token.EndsBefore (written (typeRow (some token) (next :: tokens))) ↔
      (next.apartInType (some token) || !token.runsInto next tokens) = true := by
  rw [typeRow, written]
  cases hapart : next.apartInType (some token) with
  | true => exact iff_of_true (h.endsBefore_inert (by decide) _) rfl
  | false =>
    rw [if_neg Bool.false_ne_true, List.nil_append, Bool.false_or, Bool.not_eq_true', runsInto]
    by_cases hspelling : token.kind.spelling = ""
    · have hclose := mem_closeKinds hspelling hapart
      obtain ⟨hsign, first, more, hfirst, hstops, hpoint⟩ := continues_closeKinds hspelling hclose
      have hcontinued : token.kind.isContinuedBy next.kind = false := by
        rw [Kind.isContinuedBy, hfirst, List.head?_cons, Option.any_some, hstops]
      have hstop (rest : List Char) : ∀ c ∈ (first :: rest).head?, token.kind.continues c = false := by
        rintro _ ⟨⟩
        exact hstops
      rw [hcontinued, Bool.false_or, hnext.text_eq hsign, hfirst, List.cons_append]
      by_cases hfraction : token.kind = .numericLiteral ∧ next.kind = .dot
      · obtain ⟨hnumber, hdot⟩ := hfraction
        obtain ⟨rfl, rfl⟩ : '.' = first ∧ [] = more := by
          rw [hdot] at hfirst
          exact List.cons.inj hfirst
        rcases fraction_typeRow hdot htokens with ⟨⟨digit, rest, hwritten, hdigit⟩, hhead⟩ | ⟨hnone, hhead⟩
        · rw [List.nil_append, hwritten, h.endsBefore_fraction hnumber hdigit]
          simp [hnumber, hdot, hhead]
        · exact iff_of_true (h.endsBefore (hstop _) fun _ => hnone) (by simp [hhead])
      · refine iff_of_true (h.endsBefore (hstop _) fun hnumber => ?_) ?_
        · exact fractionLength_of_head (by simpa using hpoint fun hdot => hfraction ⟨hnumber, hdot⟩)
        · simp only [Bool.and_eq_false_iff, beq_eq_false_iff_ne]
          tauto
    · have hkind : token.kind ≠ .numericLiteral := by
        intro hk
        rw [hk] at hspelling
        exact hspelling rfl
      have hpunct (rest : List Char) : token.EndsBefore rest ↔ (punct token.kind).EndsBefore rest := by
        rw [EndsBefore, EndsBefore, h.text_eq hspelling, punct]
      rw [hpunct, hnext.endsBefore_punct_iff hspelling]
      simp [hkind]

theorem reads_typeRow_iff {tokens : List Token} (h : ∀ token ∈ tokens, token.IsReadAlone)
    (previous : Option Token) :
    Reads (typeRow previous tokens) [] ↔ stayApart tokens = true := by
  induction tokens generalizing previous with
  | nil => simp [typeRow, Reads, stayApart]
  | cons token tokens ih =>
    obtain ⟨htoken, htokens⟩ := List.forall_mem_cons.mp h
    rw [typeRow, Reads, List.append_nil, ih htokens]
    cases tokens with
    | nil => simpa [typeRow, written, stayApart] using htoken.endsBefore (by simp) fun _ => rfl
    | cons next tokens =>
      obtain ⟨hnext, hrest⟩ := List.forall_mem_cons.mp htokens
      rw [htoken.endsBefore_typeRow hnext hrest, stayApart, Bool.and_eq_true]

/-- A question mark goes on with another one. -/
example : stayApart [.keyword "int", .punct .question, .punct .question] = false := by decide

end Token

end Types

end SourceGen
