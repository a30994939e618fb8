import SourceGen.Syntax.Trivia

/-! What rendering keeps of a program tree. It writes the tokens in their order with blanks between
them, and starts a line behind each comment and directive. -/

namespace SourceGen

/-- Kinds of tokens that take the rest of their line. -/
def Kind.endsLine : Kind → Bool
  | .lineComment | .docComment | .directive => true
  | _ => false

/-- The characters of a text that are not blank. -/
def Text.visible (text : String) : List Char :=
  text.toList.filter fun c => !isBlank c

/-- The text of the tokens of a tree, without anything between them. -/
def Tree.tokenText (tree : Tree) : String :=
  String.join (tree.leaves.map (·.text))

/-- The text of some pieces, before its last line is ended. -/
def Layout.written (layout : Layout) (pieces : List Piece) : String :=
  pieces.foldl layout.write ""

section Pieces

@[simp] theorem Cursor.requestLineIf_lineRequested (condition : Bool) (cursor : Cursor) :
    (cursor.requestLineIf condition).lineRequested = (condition || cursor.lineRequested) := by
  cases condition <;> rfl

@[simp] theorem Cursor.glueIf_lineRequested (condition : Bool) (cursor : Cursor) :
    (cursor.glueIf condition).lineRequested = cursor.lineRequested := by
  cases condition <;> rfl

@[simp] theorem Frame.enter_lineRequested (frame : Frame) (before : Option Kind) (child : Tree)
    (cursor : Cursor) : (frame.enter before child cursor).lineRequested = cursor.lineRequested := by
  simp [Frame.enter]

theorem Frame.leave_lineRequested (frame : Frame) (child : Tree) {cursor : Cursor}
    (h : cursor.lineRequested = true) : (frame.leave child cursor).lineRequested = true := by
  simp [Frame.leave, h]

/-- A token becomes one piece. What was asked for in front of it is still asked for where it is
laid out, and behind a comment or directive a line is asked for. -/
private theorem placeToken_eq (frame : Frame) (isFirst isLast : Bool) (token : Token)
    (cursor : Cursor) :
    ∃ ready next : Cursor,
      frame.placeToken isFirst isLast token cursor = (next, [ready.piece token]) ∧
        (cursor.lineRequested = true → ready.lineRequested = true) ∧
        (token.kind.endsLine = true → next.lineRequested = true) := by
  unfold Frame.placeToken
  split
  · next h => exact ⟨_, _, rfl, fun _ => rfl, by simp [h.1, Kind.endsLine]⟩
  · split
    · next h => exact ⟨_, _, rfl, fun _ => rfl, by simp [h.1, Kind.endsLine]⟩
    · split
      · exact ⟨_, _, rfl, fun h => by simp [h], fun _ => rfl⟩
      · next h =>
        have hends : token.kind.endsLine = false := by
          cases hk : token.kind <;> simp_all [Kind.endsLine]
        exact ⟨_, _, rfl, fun h => by simpa using h, by simp [hends]⟩

mutual

private theorem place_tokens (parent : Option Frame) (isFirst isLast : Bool) :
    (tree : Tree) → (cursor : Cursor) →
      (tree.place parent isFirst isLast cursor).2.map (·.token) = tree.leaves
  | .leaf token, cursor => by
    obtain ⟨ready, next, h, -⟩ :=
      placeToken_eq (parent.getD Frame.alone) isFirst isLast token cursor
    rw [Tree.place, h]
    rfl
  | .node kind _ children, cursor => by
    rw [Tree.place, placeAll_tokens _ _ _ children, Tree.leaves]

private theorem placeAll_tokens (frame : Frame) (isFirst : Bool) (before : Option Kind) :
    (trees : List Tree) → (cursor : Cursor) →
      (Tree.placeAll frame isFirst before trees cursor).2.map (·.token) = Tree.leavesOf trees
  | [], cursor => by simp [Tree.placeAll, Tree.leavesOf]
  | tree :: trees, cursor => by
    simp only [Tree.placeAll, List.map_append, Tree.leavesOf]
    rw [place_tokens _ _ _ tree, placeAll_tokens _ _ _ trees]

end

/-- The pieces of a tree are its tokens in their order. -/
theorem Tree.pieces_tokens (tree : Tree) : tree.pieces.map (·.token) = tree.leaves :=
  place_tokens none true true tree {}

/-- Whether a line is asked for behind pieces, given whether one is in front of them. -/
private def asksLine (asked : Bool) (pieces : List Piece) : Bool :=
  (pieces.getLast?.map (·.token.kind.endsLine)).getD asked

/-- Whether each piece starts a line that a line is asked for in front of. -/
private def StartsLines (asked : Bool) : List Piece → Prop
  | [] => True
  | piece :: pieces =>
    (asked = true → piece.onNewLine = true) ∧ StartsLines piece.token.kind.endsLine pieces

private theorem asksLine_append (asked : Bool) (pieces others : List Piece) :
    asksLine asked (pieces ++ others) = asksLine (asksLine asked pieces) others := by
  simp only [asksLine, List.getLast?_append]
  cases others.getLast? <;> simp

private theorem startsLines_append (asked : Bool) (pieces others : List Piece) :
    StartsLines asked (pieces ++ others) ↔
      StartsLines asked pieces ∧ StartsLines (asksLine asked pieces) others := by
  induction pieces generalizing asked with
  | nil => simp [StartsLines, asksLine]
  | cons piece pieces ih =>
    have hasks : asksLine asked (piece :: pieces) = asksLine piece.token.kind.endsLine pieces :=
      asksLine_append asked [piece] pieces
    rw [List.cons_append, StartsLines, StartsLines, ih, hasks, and_assoc]

mutual

private theorem place_startsLines (parent : Option Frame) (isFirst isLast : Bool) (asked : Bool) :
    (tree : Tree) → (cursor : Cursor) → (asked = true → cursor.lineRequested = true) →
      StartsLines asked (tree.place parent isFirst isLast cursor).2 ∧
        (asksLine asked (tree.place parent isFirst isLast cursor).2 = true →
          (tree.place parent isFirst isLast cursor).1.lineRequested = true)
  | .leaf token, cursor, hasked => by
    obtain ⟨ready, next, h, hready, hnext⟩ :=
      placeToken_eq (parent.getD Frame.alone) isFirst isLast token cursor
    rw [Tree.place, h]
    exact ⟨⟨fun ha => hready (hasked ha), trivial⟩, hnext⟩
  | .node kind _ children, cursor, hasked => by
    rw [Tree.place]
    exact placeAll_startsLines _ _ _ asked children _ fun ha => by simp [hasked ha]

private theorem placeAll_startsLines (frame : Frame) (isFirst : Bool) (before : Option Kind)
    (asked : Bool) :
    (trees : List Tree) → (cursor : Cursor) → (asked = true → cursor.lineRequested = true) →
      StartsLines asked (Tree.placeAll frame isFirst before trees cursor).2 ∧
        (asksLine asked (Tree.placeAll frame isFirst before trees cursor).2 = true →
          (Tree.placeAll frame isFirst before trees cursor).1.lineRequested = true)
  | [], _, hasked => ⟨trivial, hasked⟩
  | tree :: trees, cursor, hasked => by
    obtain ⟨hinside, hbetween⟩ := place_startsLines (some frame) isFirst trees.isEmpty asked tree
      (frame.enter before tree cursor) (by simpa using hasked)
    obtain ⟨hbehind, hlast⟩ := placeAll_startsLines frame false (frame.lastLine before tree) _ trees
      (frame.leave tree _) fun ha => Frame.leave_lineRequested frame tree (hbetween ha)
    rw [Tree.placeAll]
    exact ⟨(startsLines_append ..).mpr ⟨hinside, hbehind⟩,
      fun ha => hlast (asksLine_append .. ▸ ha)⟩

end

/-- Behind a comment or directive comes a token on a new line. -/
theorem Tree.pieces_onNewLine {tree : Tree} {front back : List Piece} {comment next : Piece}
    (h : tree.pieces = front ++ comment :: next :: back)
    (hends : comment.token.kind.endsLine = true) : next.onNewLine = true := by
  have hstarts : StartsLines false tree.pieces :=
    (place_startsLines none true true false tree {} (by simp)).1
  rw [h, startsLines_append] at hstarts
  exact hstarts.2.2.1 hends

end Pieces

section Blanks

theorem Text.visible_append (text other : String) :
    visible (text ++ other) = visible text ++ visible other := by
  simp [visible]

theorem Text.visible_empty : visible "" = [] := rfl

private theorem visible_newLine (newLine : NewLine) : Text.visible newLine.text = [] := by
  cases newLine <;> decide

private theorem visible_indentation (layout : Layout) (depth : Nat) :
    Text.visible (layout.indentation depth) = [] := by
  have hspace : Text.isBlank ' ' = true := by decide
  have htab : Text.isBlank '\t' = true := by decide
  cases h : layout.insertSpaces <;>
    simp [Layout.indentation, Text.visible, h, hspace, htab]

theorem Layout.visible_blanks (layout : Layout) (written : Bool) (piece : Piece) :
    Text.visible (layout.blanks written piece) = [] := by
  unfold Layout.blanks
  split
  · cases piece.afterBlank <;>
      simp [Text.visible_append, visible_newLine, visible_indentation]
  · cases piece.gap <;> decide

/-- A way to write pieces that adds blanks only writes the text of their tokens. -/
private theorem visible_foldl {write : String → Piece → String}
    (hwrite : ∀ text piece, Text.visible (write text piece) =
      Text.visible text ++ Text.visible piece.token.text) (pieces : List Piece) (text : String) :
    Text.visible (pieces.foldl write text) =
      Text.visible text ++ Text.visible (String.join (pieces.map (·.token.text))) := by
  induction pieces generalizing text with
  | nil => simp [Text.visible_empty]
  | cons piece pieces ih =>
    rw [List.foldl_cons, ih, hwrite, List.map_cons, String.join_cons, Text.visible_append,
      List.append_assoc]

private theorem visible_pieces (tree : Tree) :
    String.join (tree.pieces.map (·.token.text)) = tree.tokenText := by
  rw [Tree.tokenText, ← tree.pieces_tokens, List.map_map]
  rfl

theorem Tree.visible_render (layout : Layout) (tree : Tree) :
    Text.visible (tree.render layout) = Text.visible tree.tokenText := by
  have hwrite (text : String) (piece : Piece) : Text.visible (layout.write text piece) =
      Text.visible text ++ Text.visible piece.token.text := by
    simp [Layout.write, Text.visible_append, layout.visible_blanks]
  have hended (text : String) : Text.visible (layout.ended text) = Text.visible text := by
    unfold Layout.ended
    split
    · rfl
    · rw [Text.visible_append, visible_newLine, List.append_nil]
  rw [Tree.render, hended, visible_foldl hwrite, visible_pieces, Text.visible_empty,
    List.nil_append]

theorem Tree.visible_inline (tree : Tree) :
    Text.visible tree.inline = Text.visible tree.tokenText := by
  have hwrite (text : String) (piece : Piece) : Text.visible (inlineWrite text piece) =
      Text.visible text ++ Text.visible piece.token.text := by
    have hgap : Text.visible (if piece.gap then " " else "") = [] := by
      cases piece.gap <;> decide
    rw [inlineWrite, Text.visible_append, Text.visible_append, hgap, List.append_nil]
  rw [Tree.inline, visible_foldl hwrite, visible_pieces, Text.visible_empty, List.nil_append]

end Blanks

/-- Writing a piece only adds to a text. -/
private theorem foldl_write (layout : Layout) (pieces : List Piece) (text : String) :
    ∃ tail, pieces.foldl layout.write text = text ++ tail := by
  induction pieces generalizing text with
  | nil => exact ⟨"", by simp⟩
  | cons piece pieces ih =>
    obtain ⟨tail, h⟩ := ih (layout.write text piece)
    exact ⟨layout.blanks (!text.isEmpty) piece ++ piece.token.text ++ tail, by
      rw [List.foldl_cons, h, Layout.write]
      simp only [String.append_assoc]⟩

private theorem ended_eq (layout : Layout) (text : String) :
    ∃ tail, layout.ended text = text ++ tail := by
  unfold Layout.ended
  split
  · exact ⟨"", by simp⟩
  · exact ⟨_, rfl⟩

/-- A piece that a line was asked for starts one unless nothing is written yet. -/
private theorem newLine_prefix_iff (layout : Layout) (text : String) {piece : Piece}
    (h : piece.onNewLine = true) :
    layout.newLine.text.toList <+: (layout.blanks (!text.isEmpty) piece).toList ↔ text ≠ "" := by
  by_cases hempty : text = ""
  · subst hempty
    cases layout.newLine <;> cases hgap : piece.gap <;> simp [Layout.blanks, hgap, NewLine.text]
  · simp [Layout.blanks, h, hempty, List.append_assoc]

/-- Rendering a tree, on lines of its own or all on one line, writes the text of its tokens in their
order and otherwise only blanks. Behind a comment or directive a line break comes in front of the
next token, exactly if anything is written up to there. -/
theorem Tree.render_keeps_tokens (layout : Layout) (tree : Tree) :
    Text.visible (tree.render layout) = Text.visible tree.tokenText ∧
      Text.visible tree.inline = Text.visible tree.tokenText ∧
      tree.pieces.map (·.token) = tree.leaves ∧
      ∀ front comment next back, tree.pieces = front ++ comment :: next :: back →
        comment.token.kind.endsLine = true → ∃ gap tail,
          tree.render layout =
            layout.written (front ++ [comment]) ++ gap ++ next.token.text ++ tail ∧
          Text.visible gap = [] ∧
          (layout.newLine.text.toList <+: gap.toList ↔
            layout.written (front ++ [comment]) ≠ "") := by
  refine ⟨tree.visible_render layout, tree.visible_inline, tree.pieces_tokens, ?_⟩
  intro front comment next back hpieces hends
  let text := layout.written (front ++ [comment])
  let gap := layout.blanks (!text.isEmpty) next
  obtain ⟨rest, hrest⟩ := foldl_write layout back (text ++ gap ++ next.token.text)
  obtain ⟨tail, htail⟩ := ended_eq layout (text ++ gap ++ next.token.text ++ rest)
  have hwritten : tree.pieces.foldl layout.write "" = text ++ gap ++ next.token.text ++ rest := by
    rw [hpieces, List.append_cons, List.foldl_append, List.foldl_cons, ← hrest]
    rfl
  refine ⟨gap, rest ++ tail, ?_, layout.visible_blanks _ next,
    newLine_prefix_iff layout text (pieces_onNewLine hpieces hends)⟩
  rw [Tree.render, hwritten, htail, ← String.append_assoc]

/-- A comment and what comes behind it. -/
theorem Tree.render_keeps_tokens_nullable :
    let tree := (({} : Trivia).comment "a").directive "#nullable enable" |>.toTree
    ∃ gap tail, tree.render { newLine := .crlf } = "// a" ++ gap ++ "#nullable enable" ++ tail ∧
      "\r\n".toList <+: gap.toList := by
  intro tree
  obtain ⟨-, -, -, hnext⟩ := Tree.render_keeps_tokens { newLine := .crlf } tree
  obtain ⟨gap, tail, hrender, -, hbreak⟩ := hnext [] _ _ [] rfl rfl
  exact ⟨gap, tail, hrender, hbreak.mpr (by decide)⟩

/-- The line of a directive without text is not ended if it is the first. -/
theorem Tree.render_directive_joined :
    ¬ ∀ (layout : Layout) (tree : Tree) (front : List Token) (comment next : Token)
      (back : List Token), tree.leaves = front ++ comment :: next :: back →
        comment.kind.endsLine = true → ∃ before gap behind : List Char,
          (tree.render layout).toList =
            before ++ comment.text.toList ++ gap ++ next.text.toList ++ behind ∧ '\n' ∈ gap := by
  intro h
  let tree := (({} : Trivia).directive "").comment "x" |>.toTree
  obtain ⟨before, gap, behind, hrender, hbreak⟩ := h {} tree [] ⟨.directive, ""⟩
    ⟨.lineComment, "// x"⟩ [] rfl rfl
  have htext : (tree.render {}).toList = [' ', '/', '/', ' ', 'x', '\n'] := by decide +kernel
  -- the text of the comment leaves room for two characters in front of it
  have hlength : before.length + gap.length ≤ 2 := by
    have := congrArg List.length (htext.symm.trans hrender)
    simp at this
    omega
  have hbefore : before ++ gap <+: [' ', '/', '/', ' ', 'x', '\n'] := by
    rw [← htext, hrender]
    exact ⟨"// x".toList ++ behind, by simp⟩
  have hfront : '\n' ∈ [' ', '/', '/', ' ', 'x', '\n'].take 2 :=
    (List.prefix_take_iff.mpr ⟨hbefore, by simpa using hlength⟩).subset
      (List.mem_append_right before hbreak)
  exact absurd hfront (by decide)

end SourceGen
