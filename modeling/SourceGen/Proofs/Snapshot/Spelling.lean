import SourceGen.Proofs.Snapshot.Constant
import SourceGen.Proofs.Syntax.Rendering

/-! Constants as they are written in a source file, and as their snapshots are written. Where no
member of an enumeration is named, the two differ in the escapes of control characters only. -/

namespace SourceGen

namespace ConstantValue

/-- Whether a number of an enumeration is part of a constant. -/
def HasEnumeration (value : ConstantValue) : Prop :=
  value.Contains fun part => ∃ owner number, part = .enumeration owner number

/-- Whether a control character is part of a constant, outside of texts. -/
def HasControl (value : ConstantValue) : Prop :=
  value.Contains fun part => ∃ c, part = .primitive (.char c) ∧ Text.isControl c = true

variable {element : TypeSymbol} {items : List ConstantValue}

theorem hasEnumeration_array :
    (array element items).HasEnumeration ↔ ∃ item ∈ items, item.HasEnumeration :=
  contains_array_iff (by simp)

theorem hasControl_array : (array element items).HasControl ↔ ∃ item ∈ items, item.HasControl :=
  contains_array_iff (by simp)

theorem hasControl_char {c : Char} :
    (primitive (.char c)).HasControl ↔ Text.isControl c = true := by
  simp [HasControl, contains_iff]

end ConstantValue

/-- The number of characters of some tokens that are not blank. -/
def Token.visibleLength : List Token → Nat
  | [] => 0
  | token :: tokens => (Text.visible token.text).length + visibleLength tokens

namespace Expr

/-- The number of characters of an expression that are not blank. -/
def visibleLength (value : Expr) : Nat :=
  Token.visibleLength value.toTree.leaves

/-- The number of characters of several expressions that are not blank. -/
def visibleLengths (values : List Expr) : Nat :=
  Token.visibleLength (Tree.leavesOf (expressionTrees values))

end Expr

section Lengths

theorem Token.visibleLength_append (tokens others : List Token) :
    visibleLength (tokens ++ others) = visibleLength tokens + visibleLength others := by
  induction tokens with
  | nil => simp [visibleLength]
  | cons token tokens ih =>
    rw [List.cons_append, visibleLength, visibleLength, ih, Nat.add_assoc]

private theorem visibleLength_mark {kind : Kind}
    (h : kind ∈ [.comma, .leftBracket, .rightBracket]) :
    Token.visibleLength [.punct kind] = 1 := by
  simp only [List.mem_cons, List.not_mem_nil, or_false] at h
  rcases h with rfl | rfl | rfl <;> decide

/-- The commas between trees are one fewer than the trees. -/
theorem Tree.visibleLength_separated (trees : List Tree) :
    Token.visibleLength (leavesOf (separated trees)) =
      Token.visibleLength (leavesOf trees) + (trees.length - 1) := by
  fun_induction separated trees with
  | case1 => rfl
  | case2 tree => rfl
  | case3 tree trees hne ih =>
    have hpos : 0 < trees.length := List.length_pos_iff.mpr hne
    have hcomma : (punct .comma).leaves = [.punct .comma] := rfl
    rw [leavesOf, leavesOf, hcomma, Token.visibleLength_append, Token.visibleLength_append, ih,
      visibleLength_mark (by simp), leavesOf, Token.visibleLength_append, List.length_cons]
    omega

namespace Expr

/-- The text of an expression shows how many characters of its tokens are not blank. -/
theorem length_visible_text (value : Expr) :
    (Text.visible value.text).length = value.visibleLength := by
  have htokens (tokens : List Token) :
      (Text.visible (String.join (tokens.map (·.text)))).length = Token.visibleLength tokens := by
    induction tokens with
    | nil => rfl
    | cons token tokens ih =>
      rw [List.map_cons, String.join_cons, Text.visible_append, List.length_append, ih,
        Token.visibleLength]
  rw [text, Tree.visible_inline, Tree.tokenText, htokens, visibleLength]

theorem visibleLengths_cons (value : Expr) (values : List Expr) :
    visibleLengths (value :: values) = value.visibleLength + visibleLengths values := by
  rw [visibleLengths, expressionTrees, Tree.leavesOf, Token.visibleLength_append]
  rfl

theorem visibleLength_collection (items : List Expr) :
    (collection items).visibleLength = visibleLengths items + (items.length - 1) + 2 := by
  have hcount : (expressionTrees items).length = items.length := by
    induction items with
    | nil => rfl
    | cons item items ih => rw [expressionTrees, List.length_cons, List.length_cons, ih]
  have hleaves : (collection items).toTree.leaves = [.punct .leftBracket] ++
      Tree.leavesOf (Tree.separated (expressionTrees items)) ++ [.punct .rightBracket] := by
    rw [toTree, Tree.plain, Tree.leaves, Tree.enclosed, List.cons_append, Tree.leavesOf,
      Tree.leavesOf_append]
    rfl
  rw [visibleLength, hleaves, Token.visibleLength_append, Token.visibleLength_append,
    Tree.visibleLength_separated, hcount, visibleLength_mark (by simp),
    visibleLength_mark (by simp), visibleLengths]
  omega

theorem visibleLength_char (inner : List Char) :
    (char (charLiteral inner)).visibleLength =
      (inner.filter fun c => !Text.isBlank c).length + 2 := by
  have hquote : Text.isBlank '\'' = false := by decide
  simp [visibleLength, char, toTree, Tree.plain, Tree.leaves, Tree.leavesOf, Token.visibleLength,
    Text.visible, charLiteral, hquote]

end Expr

end Lengths

section Characters

theorem plainChar_eq {c : Char} (h : Text.isControl c = false) : plainChar c = escapedChar c := by
  unfold plainChar escapedChar
  split
  · rfl
  · rfl
  · next hquote hslash =>
    split
    · exact absurd rfl hquote
    · rfl
    · unfold Literal.escaped
      split <;> simp_all [Text.isControl]

private theorem isBlank_of_simpleEscape? {escape c : Char}
    (h : Literal.simpleEscape? escape = some c) : Text.isBlank escape = false := by
  unfold Literal.simpleEscape? at h
  split at h
  on_goal 8 => cases h
  all_goals decide

theorem visibleLength_control {c : Char} (h : Text.isControl c = true) :
    (Expr.char (charLiteral (plainChar c))).visibleLength <
      (Expr.char (charLiteral (escapedChar c))).visibleLength := by
  have hplain : plainChar c = [c] := by
    unfold plainChar
    split
    · exact absurd h (by decide)
    · exact absurd h (by decide)
    · rfl
  have hshort : ([c].filter fun c => !Text.isBlank c).length ≤ 1 := List.length_filter_le _ [c]
  -- an escape has a backslash and another character that is not blank
  have hescape {escape : Char} (hblank : Text.isBlank escape = false) (rest : List Char) :
      2 ≤ (('\\' :: escape :: rest).filter fun c => !Text.isBlank c).length := by
    have hslash : Text.isBlank '\\' = false := by decide
    simp [hslash, hblank]
  have hlong : 2 ≤ ((escapedChar c).filter fun c => !Text.isBlank c).length := by
    have hspelling := Literal.isSpelling_escapedChar c
    generalize escapedChar c = spelling at hspelling
    cases hspelling with
    | plain _ _ hcontrol => simp [hcontrol] at h
    | simple hsimple => exact hescape (isBlank_of_simpleEscape? hsimple) []
    | coded _ => exact hescape (by decide) _
  rw [Expr.visibleLength_char, Expr.visibleLength_char, hplain]
  omega

end Characters

namespace Constant

mutual

/-- A constant is written as its snapshot if no control character is part of it, and with fewer
characters otherwise. -/
theorem toExpr_cases : (value : ConstantValue) → {constant : Constant} →
    ofValue value = .ok constant → ¬ value.HasEnumeration →
      (¬ value.HasControl ∧ value.toExpr = constant.toExpr) ∨
        (value.HasControl ∧ value.toExpr.visibleLength < constant.toExpr.visibleLength)
  | .null, _, hread, _ => by
    cases hread
    rw [ConstantValue.toExpr, toExpr]
    exact .inl ⟨by simp [ConstantValue.HasControl, ConstantValue.contains_iff], rfl⟩
  | .type _, _, hread, _ => by
    cases hread
    rw [ConstantValue.toExpr, toExpr]
    exact .inl ⟨by simp [ConstantValue.HasControl, ConstantValue.contains_iff], rfl⟩
  | .primitive value, _, hread, _ => by
    cases hread
    rw [ConstantValue.toExpr, toExpr]
    cases value with
    | char c =>
      rw [ConstantValue.hasControl_char]
      cases hcontrol : Text.isControl c with
      | false =>
        exact .inl ⟨by simp, by rw [Primitive.toExpr, Primitive.toExpr, plainChar_eq hcontrol]⟩
      | true => exact .inr ⟨rfl, visibleLength_control hcontrol⟩
    | _ => exact .inl ⟨by simp [ConstantValue.HasControl, ConstantValue.contains_iff], rfl⟩
  | .enumeration owner number, _, _, henum => absurd (.self ⟨owner, number, rfl⟩) henum
  | .error, _, hread, _ => by cases hread
  | .array _ items, _, hread, henum => by
    obtain ⟨constants, hconstants, rfl⟩ := ofValue_array_eq_ok_iff.mp hread
    rw [ConstantValue.hasEnumeration_array] at henum
    rw [ConstantValue.hasControl_array, ConstantValue.toExpr, toExpr]
    rcases toExprs_cases items hconstants henum with ⟨hplain, hsame⟩ | ⟨hcontrol, hcount, hshorter⟩
    · exact .inl ⟨hplain, by rw [hsame]⟩
    · rw [Expr.visibleLength_collection, Expr.visibleLength_collection, hcount]
      exact .inr ⟨hcontrol, by omega⟩

theorem toExprs_cases : (items : List ConstantValue) → {constants : List Constant} →
    ofValues items = .ok constants → (¬ ∃ item ∈ items, item.HasEnumeration) →
      ((¬ ∃ item ∈ items, item.HasControl) ∧ ConstantValue.toExprs items = toExprs constants) ∨
        ((∃ item ∈ items, item.HasControl) ∧
          (ConstantValue.toExprs items).length = (toExprs constants).length ∧
          Expr.visibleLengths (ConstantValue.toExprs items) <
            Expr.visibleLengths (toExprs constants))
  | [], _, hread, _ => by
    cases hread
    exact .inl ⟨by simp, by rw [ConstantValue.toExprs, toExprs]⟩
  | item :: items, _, hread, henum => by
    obtain ⟨constant, constants, hconstant, hconstants, rfl⟩ := ofValues_cons_eq_ok_iff.mp hread
    rw [List.exists_mem_cons_iff, not_or] at henum
    rw [List.exists_mem_cons_iff, ConstantValue.toExprs, toExprs]
    rcases toExpr_cases item hconstant henum.1 with ⟨hplain, hsame⟩ | ⟨hcontrol, hshorter⟩ <;>
      rcases toExprs_cases items hconstants henum.2 with
        ⟨hplains, hsames⟩ | ⟨hcontrols, hcount, hshorters⟩
    · exact .inl ⟨not_or.mpr ⟨hplain, hplains⟩, by rw [hsame, hsames]⟩
    · refine .inr ⟨.inr hcontrols, by simp [hcount], ?_⟩
      rw [Expr.visibleLengths_cons, Expr.visibleLengths_cons, hsame]
      omega
    · refine .inr ⟨.inl hcontrol, by simp [hsames], ?_⟩
      rw [Expr.visibleLengths_cons, Expr.visibleLengths_cons, hsames]
      omega
    · refine .inr ⟨.inl hcontrol, by simp [hcount], ?_⟩
      rw [Expr.visibleLengths_cons, Expr.visibleLengths_cons]
      omega

end

/-- A constant without enumerations is written in a source file as its snapshot is written, exactly
if no control character is part of it. -/
theorem spelled_alike_iff (value : ConstantValue) (henum : ¬ value.HasEnumeration)
    (herror : ¬ value.HasError) :
    ∃ constant, ofValue value = .ok constant ∧
      (value.toExpr.text = constant.toExpr.text ↔ ¬ value.HasControl) := by
  obtain ⟨h, -⟩ | ⟨-, constant, hread⟩ := ofValue_cases value
  · exact absurd h herror
  refine ⟨constant, hread, ?_⟩
  rcases toExpr_cases value hread henum with ⟨hplain, hsame⟩ | ⟨hcontrol, hshorter⟩
  · exact iff_of_true (by rw [hsame]) hplain
  · refine iff_of_false (fun htext => ?_) (not_not_intro hcontrol)
    rw [← Expr.length_visible_text, ← Expr.length_visible_text, htext] at hshorter
    exact Nat.lt_irrefl _ hshorter

/-- A list of texts, numbers and types, and one with a line feed for a character. -/
theorem spelled_alike_list :
    let plain := ConstantValue.array (.special .object)
      [.primitive (.string "\n"), .primitive (.long (-1)), .type (.special .string),
        .array (.special .char) [.primitive (.char '\'')]]
    let broken := ConstantValue.array (.special .char)
      [.primitive (.char 'a'), .primitive (.char '\n')]
    (∃ constant, ofValue plain = .ok constant ∧ plain.toExpr.text = constant.toExpr.text) ∧
      ∃ constant, ofValue broken = .ok constant ∧ broken.toExpr.text ≠ constant.toExpr.text := by
  intro plain broken
  have hplain : ¬ plain.HasEnumeration ∧ ¬ plain.HasError ∧ ¬ plain.HasControl := by
    simp only [plain, ConstantValue.hasEnumeration_array, ConstantValue.hasError_array,
      ConstantValue.hasControl_array, List.exists_mem_cons_iff, List.not_mem_nil, false_and,
      exists_false, or_false, ConstantValue.hasControl_char]
    simp [ConstantValue.HasEnumeration, ConstantValue.HasError, ConstantValue.HasControl,
      ConstantValue.contains_iff, Text.isControl]
  have hbroken : ¬ broken.HasEnumeration ∧ ¬ broken.HasError ∧ broken.HasControl := by
    simp only [broken, ConstantValue.hasEnumeration_array, ConstantValue.hasError_array,
      ConstantValue.hasControl_array, List.exists_mem_cons_iff, List.not_mem_nil, false_and,
      exists_false, or_false, ConstantValue.hasControl_char]
    simp [ConstantValue.HasEnumeration, ConstantValue.HasError, ConstantValue.contains_iff,
      Text.isControl]
  obtain ⟨henum, herror, hcontrol⟩ := hplain
  obtain ⟨constant, hread, htext⟩ := spelled_alike_iff plain henum herror
  obtain ⟨hother, hbound, hfeed⟩ := hbroken
  obtain ⟨snapshot, hsnapshot, hdiffers⟩ := spelled_alike_iff broken hother hbound
  exact ⟨⟨constant, hread, htext.mpr hcontrol⟩, snapshot, hsnapshot,
    mt hdiffers.mp (not_not_intro hfeed)⟩

/-- A line feed is written as it is between the quotes of a character, and escaped in the
snapshot. -/
theorem not_spelled_alike :
    ¬ ∀ value : ConstantValue, ¬ value.HasEnumeration → ¬ value.HasError →
      ∃ constant, ofValue value = .ok constant ∧ value.toExpr.text = constant.toExpr.text := by
  intro h
  obtain ⟨constant, hread, htext⟩ := h (.primitive (.char '\n'))
    (by simp [ConstantValue.HasEnumeration, ConstantValue.contains_iff])
    (by simp [ConstantValue.HasError, ConstantValue.contains_iff])
  cases hread
  have hwritten : (ConstantValue.primitive (.char '\n')).toExpr.text = "'\n'" := by decide +kernel
  have hescaped : (Constant.primitive (.char '\n')).toExpr.text = "'\\n'" := by decide +kernel
  rw [hwritten, hescaped] at htext
  exact absurd htext (by decide)

end Constant

end SourceGen
