import SourceGen.Proofs.Syntax.Depth
import SourceGen.Proofs.Syntax.Lines
import Mathlib.Data.List.Chain

/-! How deep the lines of a rendered tree are indented: by one unit for each block that is open at the
first token of the line, without the one that this token closes. -/

namespace SourceGen

/-- The blanks by which a line is indented for each block that it stands in. -/
def Layout.unit (layout : Layout) : List Char :=
  if layout.insertSpaces then List.replicate layout.tabSize ' ' else ['\t']

/-- Whether some lines are written for rows of tokens, the first of which has the given number. A row
without tokens is an empty line. In front of the other rows stand so many units as their first tokens
ask for, and behind these tokens the texts of the others with blanks among them. -/
inductive Layout.Shows (layout : Layout) (indents : Nat → Nat → Prop) :
    Nat → List (List Token) → List (List Char) → Prop
  | done {number : Nat} : Shows layout indents number [] []
  | blank {number : Nat} {rows : List (List Token)} {lines : List (List Char)}
      (h : Shows layout indents number rows lines) :
      Shows layout indents number ([] :: rows) ([] :: lines)
  | tokens {number depth : Nat} {token : Token} {row : List Token} {tail : String}
      {rows : List (List Token)} {lines : List (List Char)} (hdepth : indents number depth)
      (htail : Text.visible tail = Text.visible (String.join (row.map (·.text))))
      (h : Shows layout indents (number + 1 + row.length) rows lines) :
      Shows layout indents number ((token :: row) :: rows)
        (((List.replicate depth layout.unit).flatten ++ token.text.toList ++ tail.toList) :: lines)

section Rows

/-- The rows of tokens that an unfinished row and the pieces behind it make. -/
def Piece.rows (row : List Token) : List Piece → List (List Token)
  | [] => [row]
  | piece :: pieces =>
    if piece.onNewLine then
      row :: ((if piece.afterBlank then [[]] else []) ++ rows [piece.token] pieces)
    else rows (row ++ [piece.token]) pieces

theorem Piece.rows_flatten (row : List Token) (pieces : List Piece) :
    (rows row pieces).flatten = row ++ pieces.map (·.token) := by
  induction pieces generalizing row with
  | nil => simp [rows]
  | cons piece pieces ih =>
    rw [rows]
    split
    · cases piece.afterBlank <;> simp [ih]
    · simp [ih]

theorem Layout.toList_indentation (layout : Layout) (depth : Nat) :
    (layout.indentation depth).toList = (List.replicate depth layout.unit).flatten := by
  cases h : layout.insertSpaces <;>
    simp [indentation, indentWidth, unit, h, List.flatten_replicate_replicate, Nat.mul_comm]

theorem Layout.toList_indented (layout : Layout) (depth : Nat) (text : String) :
    (layout.indented ⟨depth, text⟩).toList =
      (List.replicate depth layout.unit).flatten ++ text.toList := by
  rw [indented, String.toList_append, toList_indentation]

variable (layout : Layout) {indents : Nat → Nat → Prop}

/-- The lines that follow an unfinished one show the rows that follow its row. -/
theorem Line.shows_followedBy {pieces : List Piece} (token : Token) (row : List Token)
    (tail : String) {number depth : Nat} (hdepth : indents number depth)
    (htail : Text.visible tail = Text.visible (String.join (row.map (·.text))))
    (hpieces : ∀ entry ∈ pieces.zipIdx (number + 1 + row.length), indents entry.2 entry.1.depth) :
    layout.Shows indents number (Piece.rows (token :: row) pieces)
      ((followedBy ⟨depth, token.text ++ tail⟩ pieces).map
        fun line => (layout.indented line).toList) := by
  have hline (depth : Nat) (text tail : String) : (layout.indented ⟨depth, text ++ tail⟩).toList =
      (List.replicate depth layout.unit).flatten ++ text.toList ++ tail.toList := by
    rw [layout.toList_indented, String.toList_append, List.append_assoc]
  induction pieces generalizing token row tail number depth with
  | nil =>
    rw [Piece.rows, followedBy, List.map_singleton, hline]
    exact .tokens hdepth htail .done
  | cons piece pieces ih =>
    rw [List.zipIdx_cons] at hpieces
    obtain ⟨hpiece, hpieces⟩ := List.forall_mem_cons.mp hpieces
    rw [Piece.rows, followedBy]
    split
    · have hrest := ih piece.token [] "" hpiece rfl hpieces
      rw [String.append_empty] at hrest
      rw [List.map_cons, hline]
      refine .tokens hdepth htail ?_
      cases piece.afterBlank with
      | false => exact hrest
      | true =>
        have hblank : (layout.indented {}).toList = [] := by rw [layout.indented_empty]; rfl
        rw [if_pos rfl, if_pos rfl, List.singleton_append, List.singleton_append, List.map_cons,
          hblank]
        exact .blank hrest
    · have hadd : Line.add ⟨depth, token.text ++ tail⟩ piece =
          ⟨depth, token.text ++ (tail ++ ((if piece.gap then " " else "") ++ piece.token.text))⟩ := by
        rw [Line.add, String.append_assoc]
      have hgap : Text.visible (if piece.gap then " " else "") = [] := by
        cases piece.gap <;> decide
      rw [hadd]
      refine ih token (row ++ [piece.token]) _ hdepth ?_ ?_
      · simp [Text.visible_append, htail, hgap]
      · rw [List.length_append]
        exact hpieces

/-- Whether no two of some lines that follow each other are blank. -/
def Line.NoBlanks (lines : List Line) : Prop :=
  lines.IsChain fun line next => Text.visible line.text ≠ [] ∨ Text.visible next.text ≠ []

/-- A line with a token stands in front of a blank one and behind it, and the blank one is empty. -/
theorem Line.noBlanks_followedBy {pieces : List Piece}
    (h : ∀ piece ∈ pieces, Text.visible piece.token.text ≠ []) (line : Line)
    (hline : Text.visible line.text ≠ []) :
    NoBlanks (line.followedBy pieces) ∧
      (∀ first ∈ (line.followedBy pieces).head?, Text.visible first.text ≠ []) ∧
      ∀ other ∈ line.followedBy pieces, Text.visible other.text = [] → other = {} := by
  induction pieces generalizing line with
  | nil => simp [followedBy, NoBlanks, hline]
  | cons piece pieces ih =>
    obtain ⟨hpiece, hpieces⟩ := List.forall_mem_cons.mp h
    rw [followedBy]
    split
    · obtain ⟨hchain, hfirst, hempty⟩ := ih hpieces ⟨piece.depth, piece.token.text⟩ hpiece
      have hblank : NoBlanks ((if piece.afterBlank then [({} : Line)] else []) ++
          followedBy ⟨piece.depth, piece.token.text⟩ pieces) := by
        cases piece.afterBlank with
        | false => exact hchain
        | true => exact List.isChain_cons.mpr ⟨fun next hm => .inr (hfirst next hm), hchain⟩
      refine ⟨List.isChain_cons.mpr ⟨fun _ _ => .inl hline, hblank⟩, ?_, ?_⟩
      · rintro first ⟨⟩
        exact hline
      · refine List.forall_mem_cons.mpr ⟨fun hnone => absurd hnone hline, ?_⟩
        cases piece.afterBlank with
        | false => exact hempty
        | true => exact List.forall_mem_cons.mpr ⟨fun _ => rfl, hempty⟩
    · refine ih hpieces (line.add piece) ?_
      simp [add, Text.visible_append, hpiece]

end Rows

section Lines

variable {tree : Tree}

/-- The rows of tokens in the lines of a tree. -/
def Tree.rows (tree : Tree) : List (List Token) :=
  match tree.pieces with
  | [] => [[]]
  | piece :: pieces => Piece.rows [piece.token] pieces

theorem Tree.rows_flatten (tree : Tree) : tree.rows.flatten = tree.leaves := by
  rw [← tree.pieces_tokens, rows]
  cases tree.pieces with
  | nil => rfl
  | cons piece pieces => exact Piece.rows_flatten [piece.token] pieces

/-- No line in front of the first token is indented. -/
private theorem indents_zero {depth : Nat} (h : tree.Indents 0 depth) : depth = 0 := by
  have hnone : Braces.openAt (tree.blocks 0) 0 = 0 := by
    rw [Braces.openAt, List.countP_eq_zero]
    simp [Braces.isOpenAt]
  simp only [Tree.Indents, hnone] at h
  omega

private theorem lines_cons {piece : Piece} {pieces : List Piece}
    (h : tree.pieces = piece :: pieces) :
    tree.lines = Line.followedBy ⟨0, piece.token.text⟩ pieces := by
  have hgap : piece.gap = false := by
    have hfirst := tree.gap_head
    rw [h] at hfirst
    exact hfirst piece rfl
  rw [Tree.lines, h]
  simp [Line.add, hgap]

/-- The lines of a tree whose blocks have their braces show its rows. -/
theorem Tree.IsBraced.shows (h : tree.IsBraced) (layout : Layout) :
    layout.Shows tree.Indents 0 tree.rows
      (tree.lines.map fun line => (layout.indented line).toList) := by
  cases hpieces : tree.pieces with
  | nil =>
    have hblank : (layout.indented {}).toList = [] := by rw [layout.indented_empty]; rfl
    rw [rows, lines, hpieces]
    simp only [List.map_singleton, hblank]
    exact .blank .done
  | cons piece pieces =>
    have hindents := h.indents
    rw [hpieces, List.zipIdx_cons] at hindents
    obtain ⟨hfirst, hrest⟩ := List.forall_mem_cons.mp hindents
    have hzero : tree.Indents 0 0 := by
      have hfirst : tree.Indents 0 piece.depth := hfirst
      rwa [indents_zero hfirst] at hfirst
    have hshows := Line.shows_followedBy layout piece.token [] "" hzero rfl hrest
    rw [String.append_empty] at hshows
    rw [lines_cons hpieces, rows, hpieces]
    exact hshows

theorem Tree.noBlanks_lines (h : ∀ token ∈ tree.leaves, Text.visible token.text ≠ []) :
    Line.NoBlanks tree.lines ∧
      ∀ line ∈ tree.lines, Text.visible line.text = [] → line = {} := by
  have hpieces : ∀ piece ∈ tree.pieces, Text.visible piece.token.text ≠ [] := fun piece hm =>
    h piece.token (tree.pieces_tokens ▸ List.mem_map_of_mem hm)
  cases hp : tree.pieces with
  | nil => simp [lines, hp, Line.NoBlanks]
  | cons piece pieces =>
    rw [hp] at hpieces
    obtain ⟨hpiece, hpieces⟩ := List.forall_mem_cons.mp hpieces
    rw [lines_cons hp]
    obtain ⟨hchain, -, hempty⟩ :=
      Line.noBlanks_followedBy hpieces ⟨0, piece.token.text⟩ hpiece
    exact ⟨hchain, hempty⟩

end Lines

/-- The lines of a rendered tree are indented by depth. Each of them is empty or starts with a token,
and in front of this stand as many units as there are blocks that are open at the token, or one less if
the token closes a block. No two empty lines follow each other. The count of blocks is never zero
where the layout counts down, and zero at the end. -/
theorem Tree.render_depths (layout : Layout) {tree : Tree} (hwritten : tree.IsWritten)
    (htokens : ∀ token ∈ tree.leaves, token.FitsLine ∧ Text.visible token.text ≠ []) :
    (∃ rows lines,
      rows.flatten = tree.leaves ∧
      layout.newLine.lines (tree.render layout) = lines ++ [[]] ∧
      layout.Shows tree.Indents 0 rows lines ∧
      (∀ line ∈ lines, (∀ c ∈ line, Text.isBlank c = true) → line = []) ∧
      lines.IsChain fun line next => line ≠ [] ∨ next ≠ []) ∧
    (∀ braces ∈ tree.blocks 0, braces.Mark tree.leaves 0) ∧
    (∀ visit ∈ tree.allVisits, visit.closes = true → 0 < visit.cursor.depth) ∧
    (tree.place none true true {}).1.depth = 0 := by
  have hbraced := hwritten.isBraced
  obtain ⟨hchain, hempty⟩ := tree.noBlanks_lines fun token hm => (htokens token hm).2
  refine ⟨⟨tree.rows, _, tree.rows_flatten,
    tree.lines_render layout fun token hm => (htokens token hm).1, hbraced.shows layout, ?_, ?_⟩,
    hbraced.marks 0, hbraced.depth_pos, hbraced.counts.1⟩
  · refine List.forall_mem_map.mpr fun line hm hblank => ?_
    have hnone : Text.visible line.text = [] := by
      refine List.filter_eq_nil_iff.mpr fun c hc => ?_
      simp [hblank c (by simp [Layout.indented, hc])]
    rw [hempty line hm hnone, layout.indented_empty]
    rfl
  · have hnonempty (line : Line) (h : Text.visible line.text ≠ []) :
        (layout.indented line).toList ≠ [] := by
      intro hnone
      have htext : line.text = "" := by simp_all [Layout.indented]
      exact h (by rw [htext, Text.visible_empty])
    refine (List.isChain_map _).mpr (hchain.imp fun line next hor => ?_)
    exact hor.imp (hnonempty line) (hnonempty next)

/-- A block with a statement and another block in it. -/
theorem Tree.render_depths_nested :
    let tree := (Stmt.block [.leave, .block []]).toTree
    let layout : Layout := { insertSpaces := false }
    (∀ token ∈ tree.leaves, token.FitsLine ∧ Text.visible token.text ≠ []) ∧
      (∃ rows lines,
        rows.flatten = tree.leaves ∧
        NewLine.lf.lines (tree.render layout) = lines ++ [[]] ∧
        layout.Shows tree.Indents 0 rows lines) ∧
      (tree.Indents 1 1 ∧ tree.Indents 3 1 ∧ tree.Indents 4 1 ∧ tree.Indents 5 0) ∧
      (tree.place none true true {}).1.depth = 0 := by
  intro tree layout
  have hleaves : tree.leaves =
      [.punct .leftBrace, .keyword "return", .punct .semicolon, .punct .leftBrace,
        .punct .rightBrace, .punct .rightBrace] := rfl
  have htokens : ∀ token ∈ tree.leaves, token.FitsLine ∧ Text.visible token.text ≠ [] := by
    rw [hleaves]
    simp only [List.forall_mem_cons, List.not_mem_nil, false_imp_iff, implies_true, and_true]
    refine ⟨?_, ?_, ?_, ?_, ?_, ?_⟩ <;> exact ⟨⟨by decide, by decide⟩, by decide⟩
  obtain ⟨⟨rows, lines, hrows, hlines, hshows, -⟩, -, -, hdepth⟩ :=
    render_depths layout (.statement (.block [.leave, .block []])) htokens
  exact ⟨htokens, ⟨rows, lines, hrows, hlines, hshows⟩, ⟨rfl, rfl, rfl, rfl⟩, hdepth⟩

end SourceGen
