import SourceGen.Proofs.Syntax.Rendering

/-! The lines of a rendered tree. Which lines there are, how deep each of them is and what it says
does not depend on the layout, which decides the blanks in front of each line and how it ends. -/

namespace SourceGen

/-- A line of a program: how deep it is, and its text behind the blanks in front of it. -/
structure Line where
  depth : Nat := 0
  text : String := ""

namespace Line

/-- The line with a piece added at its end. -/
def add (line : Line) (piece : Piece) : Line :=
  { line with text := line.text ++ ((if piece.gap then " " else "") ++ piece.token.text) }

/-- The lines that an unfinished line and the pieces behind it make. -/
def followedBy (line : Line) : List Piece → List Line
  | [] => [line]
  | piece :: pieces =>
    if piece.onNewLine then
      line :: ((if piece.afterBlank then [{}] else []) ++
        followedBy { depth := piece.depth, text := piece.token.text } pieces)
    else followedBy (line.add piece) pieces

end Line

/-- The lines of a tree. The first piece of all starts no line of its own. -/
def Tree.lines (tree : Tree) : List Line :=
  match tree.pieces with
  | [] => [{}]
  | piece :: pieces => (Line.add {} piece).followedBy pieces

/-- A line with the blanks in front of it. -/
def Layout.indented (layout : Layout) (line : Line) : String :=
  layout.indentation line.depth ++ line.text

/-- The lines of a text in which lines end in a given way, and what stands behind the last end. -/
def NewLine.lines (newLine : NewLine) (text : String) : List (List Char) :=
  let parts := Text.splitChars '\n' text.toList
  match newLine with
  | .lf => parts
  | .crlf => parts.map fun line => if line.getLast? = some '\r' then line.dropLast else line

/-- A line without the spaces and tabs in front of it. -/
def Text.unindent (line : List Char) : List Char :=
  line.dropWhile fun c => c = ' ' || c = '\t'

/-- Whether a token has a text and no line ends in it. -/
structure Token.FitsLine (token : Token) : Prop where
  nonempty : token.text ≠ ""
  unbroken : '\n' ∉ token.text.toList

section Lines

variable {layout : Layout}

theorem Layout.indented_empty (layout : Layout) : layout.indented {} = "" := by
  simp [indented, indentation, indentWidth]

/-- Writing pieces behind an unfinished line makes the lines that follow it. -/
private theorem foldl_write_eq {pieces : List Piece} (h : ∀ piece ∈ pieces, piece.token.text ≠ "")
    {line : Line} (hline : line.text ≠ "") (done : String) :
    pieces.foldl layout.write (done ++ layout.indented line) ++ layout.newLine.text =
      done ++ String.join
        ((line.followedBy pieces).map (layout.indented · ++ layout.newLine.text)) := by
  induction pieces generalizing line done with
  | nil => simp [Line.followedBy, String.append_assoc]
  | cons piece pieces ih =>
    have hpiece : piece.token.text ≠ "" := h piece (by simp)
    have hpieces : ∀ other ∈ pieces, other.token.text ≠ "" := fun other hm => h other (by simp [hm])
    have hwrite : layout.write (done ++ layout.indented line) piece =
        done ++ layout.indented line ++ layout.blanks true piece ++ piece.token.text := by
      have hwritten : (done ++ layout.indented line).isEmpty = false := by
        simp [Layout.indented, hline]
      rw [Layout.write, hwritten]
      rfl
    rw [List.foldl_cons, Line.followedBy, hwrite]
    by_cases hnew : piece.onNewLine = true
    · let next : Line := { depth := piece.depth, text := piece.token.text }
      -- what is written up to the next line is done
      let ended := done ++ layout.indented line ++ layout.newLine.text ++
        (if piece.afterBlank then layout.newLine.text else "")
      have hstep : done ++ layout.indented line ++ layout.blanks true piece ++ piece.token.text =
          ended ++ layout.indented next := by
        simp [Layout.blanks, hnew, ended, next, Layout.indented, String.append_assoc]
      rw [hstep, ih hpieces (show next.text ≠ "" from hpiece), if_pos hnew]
      cases hblank : piece.afterBlank <;>
        simp [ended, next, hblank, layout.indented_empty, String.append_assoc]
    · have hstep : done ++ layout.indented line ++ layout.blanks true piece ++ piece.token.text =
          done ++ layout.indented (line.add piece) := by
        simp [Layout.blanks, hnew, Layout.indented, Line.add, String.append_assoc]
      rw [hstep, ih hpieces (show (line.add piece).text ≠ "" by simp [Line.add, hpiece]),
        if_neg hnew]

/-- A text that is followed by a token on its last line does not end a line. -/
private theorem endsWith_newLine {token : Token} (h : token.FitsLine) (front : String) :
    (front ++ token.text).endsWith layout.newLine.text = false := by
  rw [String.endsWith_eq_endsWith_toSlice, String.Slice.endsWith_string_eq_false_iff,
    String.copy_toSlice, String.toList_append]
  rintro ⟨rest, hrest⟩
  have hnewLine : layout.newLine.text.toList.getLast? = some '\n' := by
    cases layout.newLine <;> decide
  have hlast := congrArg List.getLast? hrest
  rw [List.getLast?_append, hnewLine, Option.some_or, List.getLast?_append] at hlast
  cases htoken : token.text.toList.getLast? with
  | none => exact h.nonempty (by simpa using htoken)
  | some c =>
    rw [htoken, Option.some_or, Option.some_inj] at hlast
    exact h.unbroken (hlast ▸ List.mem_of_getLast? htoken)

/-- The last line of a tree has no end before it gets one. -/
private theorem ended_foldl {pieces : List Piece} (h : ∀ piece ∈ pieces, piece.token.FitsLine) :
    layout.ended (layout.written pieces) = layout.written pieces ++ layout.newLine.text := by
  have hends : (layout.written pieces).endsWith layout.newLine.text = false := by
    rcases List.eq_nil_or_concat pieces with rfl | ⟨init, last, rfl⟩
    · change "".endsWith layout.newLine.text = false
      cases layout.newLine <;> decide +kernel
    · have hwritten : layout.written (init ++ [last]) =
          layout.written init ++ layout.blanks (!(layout.written init).isEmpty) last ++
            last.token.text := by
        rw [Layout.written, List.foldl_append]
        rfl
      rw [List.concat_eq_append, hwritten]
      exact endsWith_newLine (h last (by simp)) _
  simp [Layout.ended, hends]

/-- A tree is rendered as its lines, each behind the blanks that its depth asks for. -/
theorem Tree.render_eq_lines (layout : Layout) {tree : Tree}
    (h : ∀ token ∈ tree.leaves, token.FitsLine) :
    tree.render layout =
      String.join (tree.lines.map (layout.indented · ++ layout.newLine.text)) := by
  have hpieces : ∀ piece ∈ tree.pieces, piece.token.FitsLine := fun piece hm =>
    h piece.token (tree.pieces_tokens ▸ List.mem_map_of_mem hm)
  rw [Tree.render, ← Layout.written, ended_foldl hpieces, Layout.written, Tree.lines]
  cases hp : tree.pieces with
  | nil => simp [layout.indented_empty]
  | cons piece pieces =>
    rw [hp] at hpieces
    have hfirst : layout.write "" piece = "" ++ layout.indented (Line.add {} piece) := by
      simp [Layout.write, Layout.blanks, Layout.indented, Line.add, Layout.indentation,
        Layout.indentWidth]
    have hline : (Line.add {} piece).text ≠ "" := by
      simp [Line.add, (hpieces piece (by simp)).nonempty]
    rw [List.foldl_cons, hfirst,
      foldl_write_eq (fun other hm => (hpieces other (by simp [hm])).nonempty) hline]
    simp

end Lines

section Ends

/-- The text of no line of a tree has a line end in it. -/
private theorem unbroken_followedBy {pieces : List Piece}
    (h : ∀ piece ∈ pieces, '\n' ∉ piece.token.text.toList) {line : Line}
    (hline : '\n' ∉ line.text.toList) :
    ∀ other ∈ line.followedBy pieces, '\n' ∉ other.text.toList := by
  induction pieces generalizing line with
  | nil => simpa [Line.followedBy] using hline
  | cons piece pieces ih =>
    have hpiece := h piece (by simp)
    have hpieces : ∀ other ∈ pieces, '\n' ∉ other.token.text.toList :=
      fun other hm => h other (by simp [hm])
    intro other hm
    rw [Line.followedBy] at hm
    split at hm
    · rcases List.mem_cons.mp hm with rfl | hm
      · exact hline
      · rcases List.mem_append.mp hm with hm | hm
        · cases hblank : piece.afterBlank <;> simp_all
        · exact ih hpieces hpiece other hm
    · refine ih hpieces ?_ other hm
      cases hgap : piece.gap <;> simp [Line.add, hgap, hline, hpiece]

private theorem unbroken_lines {tree : Tree} (h : ∀ token ∈ tree.leaves, token.FitsLine) :
    ∀ line ∈ tree.lines, '\n' ∉ line.text.toList := by
  have hpieces : ∀ piece ∈ tree.pieces, '\n' ∉ piece.token.text.toList := fun piece hm =>
    (h piece.token (tree.pieces_tokens ▸ List.mem_map_of_mem hm)).unbroken
  unfold Tree.lines
  split
  · simp
  · next piece pieces hp =>
    rw [hp] at hpieces
    refine unbroken_followedBy (fun other hm => hpieces other (by simp [hm])) ?_
    cases hgap : piece.gap <;> simp [Line.add, hgap, hpieces piece (by simp)]

private theorem unbroken_indented (layout : Layout) {line : Line} (h : '\n' ∉ line.text.toList) :
    '\n' ∉ (layout.indented line).toList := by
  cases hspaces : layout.insertSpaces <;> simp [Layout.indented, Layout.indentation, hspaces, h]

private theorem splitChars_append {line : List Char} (h : '\n' ∉ line) (rest : List Char) :
    Text.splitChars '\n' (line ++ '\n' :: rest) = line :: Text.splitChars '\n' rest := by
  induction line with
  | nil => simp [Text.splitChars]
  | cons c line ih =>
    obtain ⟨hc, hline⟩ : '\n' ≠ c ∧ '\n' ∉ line := by simpa using h
    simp [Text.splitChars, Ne.symm hc, ih hline]

/-- Lines that are ended are found again. -/
theorem NewLine.lines_join (newLine : NewLine) {lines : List String}
    (h : ∀ line ∈ lines, '\n' ∉ line.toList) :
    newLine.lines (String.join (lines.map (· ++ newLine.text))) =
      lines.map String.toList ++ [[]] := by
  induction lines with
  | nil => cases newLine <;> rfl
  | cons line lines ih =>
    have hline : '\n' ∉ line.toList := h line (by simp)
    have hrest := ih fun other hm => h other (by simp [hm])
    cases newLine with
    | lf =>
      have hsplit : Text.splitChars '\n' (String.join ((line :: lines).map (· ++ "\n"))).toList =
          line.toList ::
            Text.splitChars '\n' (String.join (lines.map (· ++ "\n"))).toList := by
        rw [← splitChars_append hline]
        simp
      simp only [NewLine.lines, NewLine.text] at hrest ⊢
      rw [hsplit, hrest]
      rfl
    | crlf =>
      have hreturn : '\n' ∉ line.toList ++ ['\r'] := by simp [hline]
      have hsplit :
          Text.splitChars '\n' (String.join ((line :: lines).map (· ++ "\r\n"))).toList =
            (line.toList ++ ['\r']) ::
              Text.splitChars '\n' (String.join (lines.map (· ++ "\r\n"))).toList := by
        rw [← splitChars_append hreturn]
        simp
      simp only [NewLine.lines, NewLine.text] at hrest ⊢
      rw [hsplit, List.map_cons, hrest]
      simp

theorem Text.unindent_indented (layout : Layout) (line : Line) :
    unindent (layout.indented line).toList = unindent line.text.toList := by
  have hreplicate (c : Char) (hc : c = ' ' ∨ c = '\t') (count : Nat) :
      unindent (List.replicate count c ++ line.text.toList) = unindent line.text.toList := by
    induction count with
    | zero => rfl
    | succ count ih =>
      rw [← ih]
      simp [List.replicate_succ, unindent, hc]
  rw [Layout.indented, Layout.indentation, String.toList_append, String.toList_ofList]
  refine hreplicate _ ?_ _
  split <;> simp

/-- Every line feed with a carriage return in front of it. -/
def Text.withReturns (text : String) : String :=
  String.ofList (text.toList.flatMap fun c => if c = '\n' then ['\r', '\n'] else [c])

private theorem withReturns_append (text other : String) :
    Text.withReturns (text ++ other) = Text.withReturns text ++ Text.withReturns other := by
  simp [Text.withReturns]

private theorem withReturns_unbroken {line : String} (h : '\n' ∉ line.toList) :
    Text.withReturns line = line := by
  have hchars (chars : List Char) (hc : '\n' ∉ chars) :
      chars.flatMap (fun c => if c = '\n' then ['\r', '\n'] else [c]) = chars := by
    induction chars with
    | nil => rfl
    | cons c rest ih =>
      obtain ⟨hc, hrest⟩ : '\n' ≠ c ∧ '\n' ∉ rest := by simpa using hc
      simp [Ne.symm hc, ih hrest]
  rw [Text.withReturns, hchars _ h, String.ofList_toList]

private theorem withReturns_join {lines : List String} (h : ∀ line ∈ lines, '\n' ∉ line.toList) :
    Text.withReturns (String.join (lines.map (· ++ "\n"))) =
      String.join (lines.map (· ++ "\r\n")) := by
  induction lines with
  | nil => rfl
  | cons line lines ih =>
    have hend : Text.withReturns "\n" = "\r\n" := by decide
    rw [List.map_cons, String.join_cons, withReturns_append, withReturns_append, hend,
      withReturns_unbroken (h line (by simp)), ih fun other hm => h other (by simp [hm]),
      List.map_cons, String.join_cons]

private theorem unbroken_texts (layout : Layout) {tree : Tree}
    (h : ∀ token ∈ tree.leaves, token.FitsLine) :
    ∀ text ∈ tree.lines.map layout.indented, '\n' ∉ text.toList := by
  intro text hm
  obtain ⟨line, hline, rfl⟩ := List.mem_map.mp hm
  exact unbroken_indented layout (unbroken_lines h line hline)

/-- The lines of a rendered tree are those of the tree, behind the blanks of the layout. -/
theorem Tree.lines_render (layout : Layout) {tree : Tree}
    (h : ∀ token ∈ tree.leaves, token.FitsLine) :
    layout.newLine.lines (tree.render layout) =
      tree.lines.map (fun line => (layout.indented line).toList) ++ [[]] := by
  have hjoin := layout.newLine.lines_join (unbroken_texts layout h)
  rw [List.map_map, List.map_map] at hjoin
  rw [render_eq_lines layout h]
  exact hjoin

end Ends

/-- Two layouts give a tree the same lines but for the blanks in front of them. If they differ only
in how lines end, so do the texts. -/
theorem Tree.render_layouts {tree : Tree} (h : ∀ token ∈ tree.leaves, token.FitsLine)
    (layout other : Layout) :
    (layout.newLine.lines (tree.render layout)).map Text.unindent =
        (other.newLine.lines (tree.render other)).map Text.unindent ∧
      tree.render { layout with newLine := .crlf } =
        Text.withReturns (tree.render { layout with newLine := .lf }) := by
  have hlines (layout : Layout) :
      (layout.newLine.lines (tree.render layout)).map Text.unindent =
        tree.lines.map (fun line => Text.unindent line.text.toList) ++ [[]] := by
    rw [lines_render layout h, List.map_append, List.map_map]
    congr 1
    exact List.map_congr_left fun line _ => Text.unindent_indented layout line
  refine ⟨(hlines layout).trans (hlines other).symm, ?_⟩
  have hreturns := withReturns_join (unbroken_texts layout h)
  rw [List.map_map, List.map_map] at hreturns
  rw [render_eq_lines _ h, render_eq_lines _ h]
  exact hreturns.symm

/-- A block with spaces and one with tabs and carriage returns. -/
theorem Tree.render_layouts_block :
    let tree := plain .block
      [punct .leftBrace, plain .returnStatement [keyword "return", punct .semicolon],
        punct .rightBrace]
    let tabs : Layout := { insertSpaces := false, newLine := .crlf }
    (∀ token ∈ tree.leaves, token.FitsLine) ∧
      (NewLine.lf.lines (tree.render {})).map Text.unindent =
        (NewLine.crlf.lines (tree.render tabs)).map Text.unindent ∧
      tree.render tabs = Text.withReturns (tree.render { tabs with newLine := .lf }) := by
  intro tree tabs
  have hleaves : tree.leaves =
      [.punct .leftBrace, .keyword "return", .punct .semicolon, .punct .rightBrace] := rfl
  have hfits : ∀ token ∈ tree.leaves, token.FitsLine := by
    rw [hleaves]
    simp only [List.forall_mem_cons, List.not_mem_nil, false_imp_iff, implies_true, and_true]
    exact ⟨⟨by decide, by decide⟩, ⟨by decide, by decide⟩, ⟨by decide, by decide⟩,
      ⟨by decide, by decide⟩⟩
  exact ⟨hfits, (render_layouts hfits {} tabs).1, (render_layouts hfits tabs {}).2⟩

end SourceGen
