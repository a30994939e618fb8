import SourceGen.Proofs.Syntax.Braces
import SourceGen.Proofs.Syntax.Rendering
import SourceGen.Proofs.Syntax.Signature

/-! The blocks that are open at the tokens of a tree. The layout counts up behind the opening brace of a
block and down in front of the closing one, so that in front of each token its count is the number of
blocks that are open there. -/

namespace SourceGen

/-- A block by the numbers of its braces among the tokens of a tree. -/
structure Braces where
  opening : Nat
  closing : Nat

namespace Braces

/-- Whether the opening brace comes before a token and the closing brace does not. -/
def isOpenAt (number : Nat) (braces : Braces) : Bool :=
  braces.opening < number && number ≤ braces.closing

/-- The number of blocks that are open at a token. -/
def openAt (blocks : List Braces) (number : Nat) : Nat :=
  blocks.countP (isOpenAt number)

end Braces

namespace Tree

mutual

/-- The blocks in a tree whose first token has the given number. -/
def blocks (start : Nat) : Tree → List Braces
  | leaf _ => []
  | node kind _ children =>
    let inside := blocksOf start children
    if isBlock kind children then
      ⟨start, start + (leavesOf children).length - 1⟩ :: inside
    else inside

/-- The blocks in several trees that follow each other. -/
def blocksOf (start : Nat) : List Tree → List Braces
  | [] => []
  | tree :: trees => tree.blocks start ++ blocksOf (start + tree.leaves.length) trees

end

/-- Whether a line that starts with the token of a number is indented by so many units: as many as
blocks are open at the token, or one less if the token closes one of them. -/
def Indents (tree : Tree) (number depth : Nat) : Prop :=
  let blocks := tree.blocks 0
  depth + (if blocks.any (·.closing == number) then 1 else 0) = Braces.openAt blocks number

end Tree

/-- A token in the course of the layout, and the cursor in front of it. -/
structure Visit where
  frame : Frame
  isFirst : Bool
  isLast : Bool
  token : Token
  cursor : Cursor

namespace Visit

/-- What the layout does with the token. -/
def place (visit : Visit) : Cursor × List Piece :=
  visit.frame.placeToken visit.isFirst visit.isLast visit.token visit.cursor

/-- Whether the token closes a block, for which the layout counts down. -/
def closes (visit : Visit) : Bool :=
  visit.token.kind == .rightBrace && visit.frame.isBlock

/-- The depth of a line that the token starts. -/
def depth (visit : Visit) : Nat :=
  if visit.closes then visit.cursor.depth - 1 else visit.cursor.depth

end Visit

namespace Tree

mutual

/-- The tokens of a tree as they are laid out. -/
def visits (parent : Option Frame) (isFirst isLast : Bool) : Tree → Cursor → List Visit
  | leaf token, cursor => [⟨parent.getD Frame.alone, isFirst, isLast, token, cursor⟩]
  | node kind _ children, cursor =>
    visitsAll (Frame.ofNode kind children) true none children
      (cursor.requestLineIf (startsLine parent kind))

/-- The tokens of the children of a node from one of them on. -/
def visitsAll (frame : Frame) (isFirst : Bool) (before : Option Kind) :
    List Tree → Cursor → List Visit
  | [], _ => []
  | child :: rest, cursor =>
    let entered := frame.enter before child cursor
    let inside := place (some frame) isFirst rest.isEmpty child entered
    visits (some frame) isFirst rest.isEmpty child entered ++
      visitsAll frame false (frame.lastLine before child) rest (frame.leave child inside.1)

end

end Tree

section Cursors

@[simp] theorem Cursor.requestLine_depth (cursor : Cursor) :
    cursor.requestLine.depth = cursor.depth :=
  rfl

@[simp] theorem Cursor.requestLineIf_depth (condition : Bool) (cursor : Cursor) :
    (cursor.requestLineIf condition).depth = cursor.depth := by
  cases condition <;> rfl

@[simp] theorem Cursor.requestLineIf_previous (condition : Bool) (cursor : Cursor) :
    (cursor.requestLineIf condition).previous = cursor.previous := by
  cases condition <;> rfl

@[simp] theorem Cursor.glueIf_depth (condition : Bool) (cursor : Cursor) :
    (cursor.glueIf condition).depth = cursor.depth := by
  cases condition <;> rfl

@[simp] theorem Cursor.glueIf_previous (condition : Bool) (cursor : Cursor) :
    (cursor.glueIf condition).previous = cursor.previous := by
  cases condition <;> rfl

@[simp] theorem Frame.enter_depth (frame : Frame) (before : Option Kind) (child : Tree)
    (cursor : Cursor) : (frame.enter before child cursor).depth = cursor.depth := by
  simp [Frame.enter]

@[simp] theorem Frame.enter_previous (frame : Frame) (before : Option Kind) (child : Tree)
    (cursor : Cursor) : (frame.enter before child cursor).previous = cursor.previous := by
  simp [Frame.enter]

@[simp] theorem Frame.leave_depth (frame : Frame) (child : Tree) (cursor : Cursor) :
    (frame.leave child cursor).depth = cursor.depth := by
  simp [Frame.leave]

@[simp] theorem Frame.leave_previous (frame : Frame) (child : Tree) (cursor : Cursor) :
    (frame.leave child cursor).previous = cursor.previous := by
  simp [Frame.leave]

theorem Frame.isBlock_ofNode (kind : Kind) (children : List Tree) :
    (Frame.ofNode kind children).isBlock = Tree.isBlock kind children := by
  have hinline : isInlineAccessorList children = !Tree.anyBody children := by
    simp [isInlineAccessorList, Tree.anyBody, List.all_eq_not_any_not]
  cases kind <;> simp [Frame.ofNode, Frame.isBlock, Tree.isBlock, Kind.isBlock, hinline]

end Cursors

section Visits

/-- A token becomes one piece, in front of which no space stands if it is the first of all. -/
private theorem Visit.place_eq (visit : Visit) :
    ∃ piece, visit.place.2 = [piece] ∧ piece.depth = visit.depth ∧
      (visit.cursor.previous = none → piece.gap = false) := by
  have hgap {cursor : Cursor} (h : cursor.previous = none) :
      (cursor.piece visit.token).gap = false := by
    simp [Cursor.piece, needsSpace, h]
  unfold Visit.place Frame.placeToken
  split
  · next h => exact ⟨_, rfl, by simp [Visit.depth, Visit.closes, h, Cursor.piece], fun hn => hgap hn⟩
  · split
    · next h =>
      exact ⟨_, rfl, by simp [Visit.depth, Visit.closes, h, Cursor.piece, Cursor.shallower],
        fun hn => hgap hn⟩
    · next hopen hclose =>
      have hcloses : visit.closes = false := by simpa [Visit.closes] using hclose
      split
      · exact ⟨_, rfl, by simp [Visit.depth, hcloses, Cursor.piece], fun hn => hgap (by simp [hn])⟩
      · exact ⟨_, rfl, by simp [Visit.depth, hcloses, Cursor.piece], fun hn => hgap (by simp [hn])⟩

/-- Only the braces of a block change the depth. -/
private theorem Visit.place_flat (visit : Visit)
    (h : visit.token.kind.isBrace = true → visit.frame.isBlock = false) :
    visit.place.1.depth = visit.cursor.depth ∧ visit.closes = false := by
  have hopen : ¬(visit.token.kind = .leftBrace ∧ visit.frame.isBlock = true) := by
    rintro ⟨hkind, hblock⟩
    simp [hkind, Kind.isBrace, hblock] at h
  have hclose : ¬(visit.token.kind = .rightBrace ∧ visit.frame.isBlock = true) := by
    rintro ⟨hkind, hblock⟩
    simp [hkind, Kind.isBrace, hblock] at h
  refine ⟨?_, by simpa [Visit.closes] using hclose⟩
  rw [Visit.place, Frame.placeToken, if_neg hopen, if_neg hclose]
  split <;> simp [Cursor.advance]

private theorem Visit.place_opening (visit : Visit) (hkind : visit.token.kind = .leftBrace)
    (hblock : visit.frame.isBlock = true) :
    visit.place.1.depth = visit.cursor.depth + 1 ∧ visit.closes = false := by
  simp [Visit.place, Frame.placeToken, hkind, hblock, Visit.closes, Cursor.deeper, Cursor.advance]

private theorem Visit.place_closing (visit : Visit) (hkind : visit.token.kind = .rightBrace)
    (hblock : visit.frame.isBlock = true) :
    visit.place.1.depth = visit.cursor.depth - 1 ∧ visit.closes = true := by
  simp [Visit.place, Frame.placeToken, hkind, hblock, Visit.closes, Cursor.shallower,
    Cursor.advance]

mutual

private theorem place_visits (parent : Option Frame) (isFirst isLast : Bool) :
    (tree : Tree) → (cursor : Cursor) →
      (tree.place parent isFirst isLast cursor).2 =
        (tree.visits parent isFirst isLast cursor).flatMap fun visit => visit.place.2
  | .leaf token, cursor => by simp [Tree.place, Tree.visits, Visit.place]
  | .node kind _ children, cursor => by
    rw [Tree.place, Tree.visits, placeAll_visits _ _ _ children]

private theorem placeAll_visits (frame : Frame) (isFirst : Bool) (before : Option Kind) :
    (trees : List Tree) → (cursor : Cursor) →
      (Tree.placeAll frame isFirst before trees cursor).2 =
        (Tree.visitsAll frame isFirst before trees cursor).flatMap fun visit => visit.place.2
  | [], cursor => by simp [Tree.placeAll, Tree.visitsAll]
  | tree :: trees, cursor => by
    simp only [Tree.placeAll, Tree.visitsAll, List.flatMap_append]
    rw [place_visits _ _ _ tree, placeAll_visits _ _ _ trees]

end

mutual

/-- No space stands in front of the first token of all. -/
private theorem place_gap (parent : Option Frame) (isFirst isLast : Bool) :
    (tree : Tree) → (cursor : Cursor) → cursor.previous = none →
      (∀ piece ∈ (tree.place parent isFirst isLast cursor).2.head?, piece.gap = false) ∧
        ((tree.place parent isFirst isLast cursor).2 = [] →
          (tree.place parent isFirst isLast cursor).1.previous = none)
  | .leaf token, cursor, h => by
    obtain ⟨piece, hpieces, -, hgap⟩ :=
      Visit.place_eq ⟨parent.getD Frame.alone, isFirst, isLast, token, cursor⟩
    have hplace : ((Tree.leaf token).place parent isFirst isLast cursor).2 = [piece] := hpieces
    simp [hplace, hgap h]
  | .node kind _ children, cursor, h => by
    rw [Tree.place]
    exact placeAll_gap _ _ _ children _ (by simpa using h)

private theorem placeAll_gap (frame : Frame) (isFirst : Bool) (before : Option Kind) :
    (trees : List Tree) → (cursor : Cursor) → cursor.previous = none →
      (∀ piece ∈ (Tree.placeAll frame isFirst before trees cursor).2.head?, piece.gap = false) ∧
        ((Tree.placeAll frame isFirst before trees cursor).2 = [] →
          (Tree.placeAll frame isFirst before trees cursor).1.previous = none)
  | [], cursor, h => by simp [Tree.placeAll, h]
  | tree :: trees, cursor, h => by
    obtain ⟨hinside, hnone⟩ := place_gap (some frame) isFirst trees.isEmpty tree
      (frame.enter before tree cursor) (by simpa using h)
    rw [Tree.placeAll]
    cases hpieces : (tree.place (some frame) isFirst trees.isEmpty
      (frame.enter before tree cursor)).2 with
    | nil =>
      simpa using placeAll_gap frame false (frame.lastLine before tree) trees
        (frame.leave tree _) (by simpa using hnone hpieces)
    | cons piece pieces =>
      rw [hpieces] at hinside
      simpa using hinside

end

end Visits

section Counts

namespace Braces

theorem isOpenAt_iff {number : Nat} {braces : Braces} :
    braces.isOpenAt number = true ↔ braces.opening < number ∧ number ≤ braces.closing := by
  simp [isOpenAt]

theorem openAt_append (blocks others : List Braces) (number : Nat) :
    openAt (blocks ++ others) number = openAt blocks number + openAt others number :=
  List.countP_append

theorem openAt_cons (braces : Braces) (blocks : List Braces) (number : Nat) :
    openAt (braces :: blocks) number =
      openAt blocks number + if braces.isOpenAt number then 1 else 0 :=
  List.countP_cons

/-- Whether all tokens of some blocks come behind a token or in front of it. -/
def Avoid (blocks : List Braces) (number : Nat) : Prop :=
  ∀ braces ∈ blocks,
    (number ≤ braces.opening ∧ number < braces.closing) ∨
      (braces.opening < number ∧ braces.closing < number)

theorem Avoid.openAt_eq {blocks : List Braces} {number : Nat} (h : Avoid blocks number) :
    openAt blocks number = 0 := by
  rw [openAt, List.countP_eq_zero]
  intro braces hm
  have := h braces hm
  rw [isOpenAt_iff]
  omega

theorem Avoid.closing_ne {blocks : List Braces} {number : Nat} (h : Avoid blocks number) :
    ∀ braces ∈ blocks, braces.closing ≠ number := by
  intro braces hm
  have := h braces hm
  omega

end Braces

/-- Whether a token of the layout is as deep as the blocks that are open in front of it say, and closes
one exactly if it is the closing brace of one. -/
structure Counts (blocks : List Braces) (depth : Nat) (entry : Visit × Nat) : Prop where
  depth : entry.1.cursor.depth = depth + Braces.openAt blocks entry.2
  closes : entry.1.closes = true ↔ ∃ braces ∈ blocks, braces.closing = entry.2

theorem Counts.append {blocks others : List Braces} {depth : Nat} {entry : Visit × Nat}
    (h : Counts blocks depth entry) (hothers : Braces.Avoid others entry.2) :
    Counts (blocks ++ others) depth entry where
  depth := by rw [Braces.openAt_append, hothers.openAt_eq, h.depth, Nat.add_zero]
  closes := by
    have hnone := hothers.closing_ne
    rw [h.closes]
    simp only [List.mem_append, or_and_right, exists_or]
    exact ⟨.inl, fun hor => hor.resolve_right fun ⟨braces, hm, heq⟩ => hnone braces hm heq⟩

theorem Counts.behind {blocks others : List Braces} {depth : Nat} {entry : Visit × Nat}
    (h : Counts blocks depth entry) (hothers : Braces.Avoid others entry.2) :
    Counts (others ++ blocks) depth entry where
  depth := by
    rw [Braces.openAt, List.perm_append_comm.countP_eq]
    exact (h.append hothers).depth
  closes := by
    simp only [(h.append hothers).closes, List.mem_append, or_comm]

end Counts

section Ranges

variable {tree : Tree} {trees : List Tree}

/-- Whether some blocks are within tokens that follow each other from one on. -/
def Braces.Within (blocks : List Braces) (start length : Nat) : Prop :=
  ∀ braces ∈ blocks, start ≤ braces.opening ∧ braces.opening < braces.closing ∧
    braces.closing < start + length

theorem Braces.Within.avoid {blocks : List Braces} {start length number : Nat}
    (h : Within blocks start length) (hnumber : number < start + 1 ∨ start + length ≤ number) :
    Avoid blocks number := by
  intro braces hm
  have := h braces hm
  omega

theorem Tree.blocksOf_append (start : Nat) (trees others : List Tree) :
    blocksOf start (trees ++ others) =
      blocksOf start trees ++ blocksOf (start + (leavesOf trees).length) others := by
  induction trees generalizing start with
  | nil => simp [blocksOf, leavesOf]
  | cons tree trees ih =>
    rw [List.cons_append, blocksOf, ih, blocksOf, leavesOf, List.length_append, List.append_assoc,
      Nat.add_assoc]

theorem Tree.length_leavesOf_block (inner : List Tree) :
    (leavesOf (punct .leftBrace :: (inner ++ [punct .rightBrace]))).length =
      (leavesOf inner).length + 2 := by
  simp [leavesOf, leavesOf_append, punct, leaves]

/-- The blocks of a node that is one are the node itself and those between its braces. -/
theorem Tree.blocks_block {kind : Kind} {anchor : Option Anchor} {inner : List Tree}
    (h : isBlock kind (punct .leftBrace :: (inner ++ [punct .rightBrace])) = true) (start : Nat) :
    (node kind anchor (punct .leftBrace :: (inner ++ [punct .rightBrace]))).blocks start =
      ⟨start, start + 1 + (leavesOf inner).length⟩ :: blocksOf (start + 1) inner := by
  have hclosing : start + ((leavesOf inner).length + 2) - 1 =
      start + 1 + (leavesOf inner).length := by
    omega
  have hinside : blocksOf start (punct .leftBrace :: (inner ++ [punct .rightBrace])) =
      blocksOf (start + 1) inner := by
    simp [blocksOf, blocksOf_append, punct, leaves, blocks]
  simp only [blocks]
  rw [if_pos h, length_leavesOf_block, hclosing, hinside]

/-- Whether the numbers of a block are those of an opening brace and of a closing one behind it, among
tokens that are numbered from one on. -/
def Braces.Mark (tokens : List Token) (start : Nat) (braces : Braces) : Prop :=
  ∃ first last, first < last ∧ braces = ⟨start + first, start + last⟩ ∧
    tokens[first]? = some (.punct .leftBrace) ∧ tokens[last]? = some (.punct .rightBrace)

theorem Braces.Mark.append {tokens : List Token} {start : Nat} {braces : Braces}
    (front back : List Token) (h : braces.Mark tokens (start + front.length)) :
    braces.Mark (front ++ tokens ++ back) start := by
  obtain ⟨first, last, hlt, rfl, hfirst, hlast⟩ := h
  have hget {number : Nat} {token : Token} (hn : tokens[number]? = some token) :
      (front ++ tokens ++ back)[front.length + number]? = some token := by
    obtain ⟨hlt, -⟩ := List.getElem?_eq_some_iff.mp hn
    rw [List.getElem?_append_left (by rw [List.length_append]; omega),
      List.getElem?_append_right (Nat.le_add_right ..), Nat.add_sub_cancel_left, hn]
  exact ⟨front.length + first, front.length + last, Nat.add_lt_add_left hlt _,
    by simp [Nat.add_assoc], hget hfirst, hget hlast⟩

theorem Braces.within_of_marks {blocks : List Braces} {tokens : List Token} {start : Nat}
    (h : ∀ braces ∈ blocks, braces.Mark tokens start) : Within blocks start tokens.length := by
  intro braces hm
  obtain ⟨first, last, hlt, rfl, -, hlast⟩ := h braces hm
  obtain ⟨hlength, -⟩ := List.getElem?_eq_some_iff.mp hlast
  exact ⟨Nat.le_add_right .., Nat.add_lt_add_left hlt _, Nat.add_lt_add_left hlength _⟩

theorem Tree.marks_blocksOf
    (h : ∀ tree ∈ trees, ∀ start, ∀ braces ∈ tree.blocks start, braces.Mark tree.leaves start)
    (start : Nat) : ∀ braces ∈ blocksOf start trees, braces.Mark (leavesOf trees) start := by
  induction trees generalizing start with
  | nil => simp [blocksOf]
  | cons tree trees ih =>
    obtain ⟨htree, htrees⟩ := List.forall_mem_cons.mp h
    rw [blocksOf, leavesOf]
    intro braces hm
    rcases List.mem_append.mp hm with hm | hm
    · exact (htree start braces hm).append [] (leavesOf trees)
    · simpa using (ih htrees (start + tree.leaves.length) braces hm).append tree.leaves []

/-- The numbers of the blocks of a tree are those of their braces. -/
theorem Tree.IsBraced.marks (h : tree.IsBraced) :
    ∀ start, ∀ braces ∈ tree.blocks start, braces.Mark tree.leaves start := by
  induction h with
  | leaf token => simp [blocks]
  | flat hflat h ih =>
    intro start
    rw [blocks, leaves]
    simpa [hflat] using marks_blocksOf ih start
  | @block kind anchor inner hblock hinner h ih =>
    intro start braces hm
    have hleaves : (node kind anchor (punct .leftBrace :: (inner ++ [punct .rightBrace]))).leaves =
        [.punct .leftBrace] ++ leavesOf inner ++ [.punct .rightBrace] := by
      simp [leaves, leavesOf, leavesOf_append, punct]
    rw [blocks_block hblock] at hm
    rw [hleaves]
    rcases List.mem_cons.mp hm with rfl | hm
    · refine ⟨0, 1 + (leavesOf inner).length, by omega, by simp [Nat.add_assoc], rfl, ?_⟩
      rw [List.getElem?_append_right (by simp [Nat.add_comm])]
      simp [Nat.add_comm]
    · exact (marks_blocksOf ih (start + 1) braces hm).append [.punct .leftBrace] [.punct .rightBrace]

theorem Tree.IsBraced.within (h : tree.IsBraced) (start : Nat) :
    Braces.Within (tree.blocks start) start tree.leaves.length :=
  Braces.within_of_marks (h.marks start)

theorem Tree.AreBraced.within (h : AreBraced trees) (start : Nat) :
    Braces.Within (blocksOf start trees) start (leavesOf trees).length :=
  Braces.within_of_marks (marks_blocksOf (fun tree hm => (h tree hm).marks) start)

section Block

variable {inside : List Braces} {start length depth : Nat}

theorem Counts.opening (h : Braces.Within inside (start + 1) length) {visit : Visit}
    (hdepth : visit.cursor.depth = depth) (hcloses : visit.closes = false) :
    Counts (⟨start, start + 1 + length⟩ :: inside) depth (visit, start) := by
  have hcounts : Counts [] depth (visit, start) := ⟨hdepth, by simp [hcloses]⟩
  refine hcounts.append (List.forall_mem_cons.mpr ⟨.inl ?_, h.avoid (.inl ?_)⟩)
  · simp only
    omega
  · simp only
    omega

theorem Counts.within {entry : Visit × Nat} (h : Counts inside (depth + 1) entry)
    (hfirst : start + 1 ≤ entry.2) (hlast : entry.2 < start + 1 + length) :
    Counts (⟨start, start + 1 + length⟩ :: inside) depth entry where
  depth := by
    have hopen : Braces.isOpenAt entry.2 ⟨start, start + 1 + length⟩ = true :=
      Braces.isOpenAt_iff.mpr ⟨hfirst, Nat.le_of_lt hlast⟩
    rw [Braces.openAt_cons, hopen, h.depth, if_pos rfl]
    omega
  closes := by
    have hne : start + 1 + length ≠ entry.2 := by omega
    simp [h.closes, hne]

theorem Counts.closing (h : Braces.Within inside (start + 1) length) {visit : Visit}
    (hdepth : visit.cursor.depth = depth + 1) (hcloses : visit.closes = true) :
    Counts (⟨start, start + 1 + length⟩ :: inside) depth (visit, start + 1 + length) where
  depth := by
    have hopen : Braces.isOpenAt (start + 1 + length) ⟨start, start + 1 + length⟩ = true :=
      Braces.isOpenAt_iff.mpr ⟨by simp only; omega, Nat.le_refl _⟩
    rw [Braces.openAt_cons, hopen, (h.avoid (.inr (Nat.le_refl _))).openAt_eq, if_pos rfl]
    exact hdepth
  closes := by simp [hcloses]

end Block

end Ranges

section Layouts

mutual

private theorem visits_tokens (parent : Option Frame) (isFirst isLast : Bool) :
    (tree : Tree) → (cursor : Cursor) →
      (tree.visits parent isFirst isLast cursor).map (·.token) = tree.leaves
  | .leaf token, cursor => by simp [Tree.visits, Tree.leaves]
  | .node kind _ children, cursor => by
    rw [Tree.visits, visitsAll_tokens _ _ _ children, Tree.leaves]

private theorem visitsAll_tokens (frame : Frame) (isFirst : Bool) (before : Option Kind) :
    (trees : List Tree) → (cursor : Cursor) →
      (Tree.visitsAll frame isFirst before trees cursor).map (·.token) = Tree.leavesOf trees
  | [], cursor => by simp [Tree.visitsAll, Tree.leavesOf]
  | tree :: trees, cursor => by
    simp only [Tree.visitsAll, List.map_append, Tree.leavesOf]
    rw [visits_tokens _ _ _ tree, visitsAll_tokens _ _ _ trees]

end

private theorem length_visits (parent : Option Frame) (isFirst isLast : Bool) (tree : Tree)
    (cursor : Cursor) : (tree.visits parent isFirst isLast cursor).length = tree.leaves.length := by
  rw [← visits_tokens parent isFirst isLast tree cursor, List.length_map]

/-- Whether a tree leaves the cursor as deep as it finds it, and its tokens are as deep as its blocks
say. -/
def Tree.KeepsDepth (tree : Tree) : Prop :=
  ∀ parent isFirst isLast start cursor,
    (tree.kind.isBrace = true → (parent.getD Frame.alone).isBlock = false) →
      (tree.place parent isFirst isLast cursor).1.depth = cursor.depth ∧
        ∀ entry ∈ (tree.visits parent isFirst isLast cursor).zipIdx start,
          Counts (tree.blocks start) cursor.depth entry

/-- The children of a node up to some point are laid out and leave the cursor as deep as it was for
those behind. -/
private theorem exists_front (frame : Frame) {trees : List Tree} (hbraced : Tree.AreBraced trees)
    (hkeeps : ∀ tree ∈ trees, tree.KeepsDepth)
    (hbrace : ∀ tree ∈ trees, tree.kind.isBrace = true → frame.isBlock = false) (back : List Tree)
    (isFirst : Bool) (before : Option Kind) (start : Nat) (cursor : Cursor) :
    ∃ front first last next,
      Tree.visitsAll frame isFirst before (trees ++ back) cursor =
          front ++ Tree.visitsAll frame first last back next ∧
        (Tree.placeAll frame isFirst before (trees ++ back) cursor).1 =
          (Tree.placeAll frame first last back next).1 ∧
        next.depth = cursor.depth ∧ front.length = (Tree.leavesOf trees).length ∧
        ∀ entry ∈ front.zipIdx start, Counts (Tree.blocksOf start trees) cursor.depth entry := by
  induction trees generalizing isFirst before start cursor with
  | nil => exact ⟨[], isFirst, before, cursor, rfl, rfl, rfl, rfl, by simp⟩
  | cons tree trees ih =>
    obtain ⟨hbraced, hrest⟩ := (Tree.areBraced_cons ..).mp hbraced
    obtain ⟨hkeep, hkeeps⟩ := List.forall_mem_cons.mp hkeeps
    obtain ⟨hkind, hbrace⟩ := List.forall_mem_cons.mp hbrace
    let entered := frame.enter before tree cursor
    obtain ⟨hdepth, hcounts⟩ :=
      hkeep (some frame) isFirst (trees ++ back).isEmpty start entered hkind
    let left := frame.leave tree
      (tree.place (some frame) isFirst (trees ++ back).isEmpty entered).1
    have hleft : left.depth = cursor.depth := by simp [left, hdepth, entered]
    obtain ⟨front, first, last, next, hvisits, hplace, hnext, hlength, hbehind⟩ :=
      ih hrest hkeeps hbrace false (frame.lastLine before tree) (start + tree.leaves.length) left
    let inside := tree.visits (some frame) isFirst (trees ++ back).isEmpty entered
    have hinside : inside.length = tree.leaves.length := length_visits ..
    refine ⟨inside ++ front, first, last, next, ?_, ?_, hnext.trans hleft, ?_, ?_⟩
    · rw [List.append_assoc, ← hvisits]
      rfl
    · rw [← hplace]
      rfl
    · rw [List.length_append, hinside, hlength, Tree.leavesOf, List.length_append]
    · rw [List.zipIdx_append, hinside, Tree.blocksOf]
      refine List.forall_mem_append.mpr ⟨fun entry hm => ?_, fun entry hm => ?_⟩
      · have hnumber := List.snd_lt_add_of_mem_zipIdx hm
        have hcount : Counts (tree.blocks start) cursor.depth entry := by
          simpa [entered] using hcounts entry hm
        refine hcount.append ((hrest.within _).avoid (.inl ?_))
        omega
      · have hnumber := List.le_snd_of_mem_zipIdx hm
        have hcount := hbehind entry hm
        rw [hleft] at hcount
        exact hcount.behind ((hbraced.within start).avoid (.inr hnumber))

/-- What a block counts down at its end it has counted up at its start, and nothing between its
braces changes the count. -/
theorem Tree.IsBraced.keepsDepth {tree : Tree} (h : tree.IsBraced) : tree.KeepsDepth := by
  induction h with
  | leaf token =>
    intro parent isFirst isLast start cursor hbrace
    let visit : Visit := ⟨parent.getD Frame.alone, isFirst, isLast, token, cursor⟩
    obtain ⟨hdepth, hcloses⟩ := visit.place_flat hbrace
    refine ⟨hdepth, ?_⟩
    have hcounts : Counts [] cursor.depth (visit, start) := ⟨rfl, by simp [hcloses]⟩
    simpa [visits, blocks, visit] using hcounts
  | @flat kind anchor children hflat h ih =>
    intro parent isFirst isLast start cursor _
    obtain ⟨front, first, last, next, hvisits, hplace, hnext, -, hcounts⟩ :=
      exists_front (Frame.ofNode kind children) h ih
        (fun _ _ _ => by rw [Frame.isBlock_ofNode, hflat]) [] true none start
        (cursor.requestLineIf (startsLine parent kind))
    rw [List.append_nil] at hvisits hplace
    have hblocks : (node kind anchor children).blocks start = blocksOf start children := by
      simp [blocks, hflat]
    rw [place, visits, hvisits, hplace, hblocks]
    exact ⟨by simp [placeAll, hnext], by simpa [visitsAll] using hcounts⟩
  | @block kind anchor inner hblock hinner h ih =>
    intro parent isFirst isLast start cursor _
    let frame := Frame.ofNode kind (punct .leftBrace :: (inner ++ [punct .rightBrace]))
    have hframe : frame.isBlock = true := by rw [Frame.isBlock_ofNode, hblock]
    let opening : Visit := ⟨frame, true, (inner ++ [punct .rightBrace]).isEmpty, .punct .leftBrace,
      frame.enter none (punct .leftBrace) (cursor.requestLineIf (startsLine parent kind))⟩
    have hready : opening.cursor.depth = cursor.depth := by simp [opening]
    obtain ⟨hopening, hopens⟩ := opening.place_opening rfl hframe
    obtain ⟨front, first, last, next, hvisits, hplace, hnext, hlength, hcounts⟩ :=
      exists_front frame h ih
        (fun tree hm hb => by rw [hinner tree hm] at hb; cases hb) [punct .rightBrace] false
        (frame.lastLine none (punct .leftBrace)) (start + 1)
        (frame.leave (punct .leftBrace) opening.place.1)
    let closing : Visit := ⟨frame, first, true, .punct .rightBrace,
      frame.enter last (punct .rightBrace) next⟩
    have hinside : closing.cursor.depth = cursor.depth + 1 := by
      simp [closing, hnext, hopening, hready]
    obtain ⟨hclosing, hcloses⟩ := closing.place_closing rfl hframe
    have hall : (node kind anchor (punct .leftBrace :: (inner ++ [punct .rightBrace]))).visits
        parent isFirst isLast cursor = opening :: (front ++ [closing]) := by
      rw [visits]
      exact congrArg (opening :: ·) hvisits
    have hlast : ((node kind anchor (punct .leftBrace :: (inner ++ [punct .rightBrace]))).place
        parent isFirst isLast cursor).1.depth = closing.place.1.depth := by
      rw [place]
      refine (congrArg Cursor.depth hplace).trans ?_
      simp only [placeAll]
      exact Frame.leave_depth ..
    have hwithin := AreBraced.within h (start + 1)
    refine ⟨by rw [hlast, hclosing, hinside]; rfl, ?_⟩
    rw [hall, blocks_block hblock, List.zipIdx_cons, List.zipIdx_append, hlength]
    refine List.forall_mem_cons.mpr ⟨Counts.opening hwithin hready hopens,
      List.forall_mem_append.mpr ⟨fun entry hm => ?_, ?_⟩⟩
    · have hcount : Counts (blocksOf (start + 1) inner) (cursor.depth + 1) entry := by
        simpa [hopening, hready] using hcounts entry hm
      refine hcount.within (List.le_snd_of_mem_zipIdx hm) ?_
      rw [← hlength]
      exact List.snd_lt_add_of_mem_zipIdx hm
    · simpa using Counts.closing hwithin hinside hcloses

end Layouts

section Depths

variable {tree : Tree}

/-- The tokens of a whole tree as they are laid out. -/
def Tree.allVisits (tree : Tree) : List Visit :=
  tree.visits none true true {}

theorem Tree.pieces_visits (tree : Tree) :
    tree.pieces = tree.allVisits.flatMap fun visit => visit.place.2 :=
  place_visits none true true tree {}

theorem Tree.gap_head (tree : Tree) : ∀ piece ∈ tree.pieces.head?, piece.gap = false :=
  (place_gap none true true tree {} rfl).1

private theorem pieces_depth (tree : Tree) :
    tree.pieces.map (·.depth) = tree.allVisits.map Visit.depth := by
  rw [tree.pieces_visits]
  induction tree.allVisits with
  | nil => rfl
  | cons visit visits ih =>
    obtain ⟨piece, hpieces, hdepth, -⟩ := visit.place_eq
    simp [hpieces, hdepth, ih]

theorem Tree.IsBraced.counts (h : tree.IsBraced) :
    (tree.place none true true {}).1.depth = 0 ∧
      ∀ entry ∈ tree.allVisits.zipIdx, Counts (tree.blocks 0) 0 entry :=
  h.keepsDepth none true true 0 {} fun _ => rfl

/-- A block is open at its closing brace. -/
theorem Tree.IsBraced.openAt_pos (h : tree.IsBraced) {braces : Braces}
    (hm : braces ∈ tree.blocks 0) : 0 < Braces.openAt (tree.blocks 0) braces.closing := by
  have hopen : braces.isOpenAt braces.closing = true :=
    Braces.isOpenAt_iff.mpr ⟨(h.within 0 braces hm).2.1, Nat.le_refl _⟩
  exact List.countP_pos_iff.mpr ⟨braces, hm, hopen⟩

/-- The count is never zero where it counts down. -/
theorem Tree.IsBraced.depth_pos (h : tree.IsBraced) :
    ∀ visit ∈ tree.allVisits, visit.closes = true → 0 < visit.cursor.depth := by
  intro visit hm hcloses
  obtain ⟨number, hnumber⟩ := List.mem_iff_getElem?.mp hm
  have hcounts := h.counts.2 (visit, number) (List.mk_mem_zipIdx_iff_getElem?.mpr hnumber)
  obtain ⟨braces, hb, rfl⟩ := hcounts.closes.mp hcloses
  rw [hcounts.depth, Nat.zero_add]
  exact h.openAt_pos hb

/-- A line that starts with a token is as deep as the tree asks for. -/
theorem Tree.IsBraced.indents (h : tree.IsBraced) :
    ∀ entry ∈ tree.pieces.zipIdx, tree.Indents entry.2 entry.1.depth := by
  rintro ⟨piece, number⟩ hm
  have hdepth : (piece.depth, number) ∈ (tree.allVisits.map Visit.depth).zipIdx := by
    rw [← pieces_depth, List.zipIdx_map]
    exact List.mem_map.mpr ⟨(piece, number), hm, rfl⟩
  rw [List.zipIdx_map] at hdepth
  obtain ⟨⟨visit, other⟩, hvisit, heq⟩ := List.mem_map.mp hdepth
  obtain ⟨hpiece, rfl⟩ : visit.depth = piece.depth ∧ other = number := by simpa using heq
  have hcounts := h.counts.2 (visit, other) hvisit
  have hcursor : visit.cursor.depth = Braces.openAt (tree.blocks 0) other := by
    rw [hcounts.depth, Nat.zero_add]
  simp only [Tree.Indents, ← hpiece, Visit.depth]
  by_cases hcloses : visit.closes = true
  · obtain ⟨braces, hb, hclosing⟩ := hcounts.closes.mp hcloses
    have hclosing : braces.closing = other := hclosing
    have hany : (tree.blocks 0).any (·.closing == other) = true :=
      List.any_eq_true.mpr ⟨braces, hb, by simpa using hclosing⟩
    have hpos := h.openAt_pos hb
    rw [hclosing] at hpos
    rw [if_pos hcloses, if_pos hany, hcursor]
    omega
  · have hany : ¬(tree.blocks 0).any (·.closing == other) = true := by
      intro hany
      obtain ⟨braces, hb, hclosing⟩ := List.any_eq_true.mp hany
      exact hcloses (hcounts.closes.mpr ⟨braces, hb, by simpa using hclosing⟩)
    rw [if_neg hcloses, if_neg hany, hcursor, Nat.add_zero]

end Depths

end SourceGen
