import SourceGen.Proofs.Syntax.Lexing
import SourceGen.Syntax.TypeExpr
import SourceGen.Text.Trim

/-! The names that types are shown by, read as types and written again. Both ways of writing put
the same tokens in a row, with a space in front of some of them. They differ in one place only: a
type is written with a space between a star and a bracket. -/

namespace SourceGen

namespace Token

/-- Whether a type is written with a space in front of a token. -/
def apartInType (previous : Option Token) (token : Token) : Bool :=
  token.kind != .star && needsSpace previous token.kind

/-- Whether the name of a type has a space in front of a token. -/
def apartInName (previous : Option Token) (token : Token) : Bool :=
  previous.any (·.kind == .comma) && (token.kind == .identifier || token.kind == .keyword)

end Token

section Written

/-- A token of a type stands apart from the one before it as tokens of types do. -/
private theorem placeToken_type {frame : Frame} (hframe : frame.kind = .type)
    (isFirst isLast : Bool) (token : Token) {cursor : Cursor} (hglued : cursor.glued = false) :
    ∃ next piece, frame.placeToken isFirst isLast token cursor = (next, [piece]) ∧
      next.glued = false ∧ next.previous = some token ∧
      piece.token = token ∧ piece.gap = token.apartInType cursor.previous := by
  have hblock : frame.isBlock = false := by simp [Frame.isBlock, hframe]
  unfold Frame.placeToken
  simp only [hblock, Bool.false_eq_true, and_false, if_false]
  split
  · next hends =>
    have hstar : token.kind ≠ .star := by rintro h; simp [h] at hends
    refine ⟨_, _, rfl, rfl, rfl, rfl, ?_⟩
    simp [Cursor.piece, Token.apartInType, hstar, hframe, hglued, Cursor.requestLineIf]
  · refine ⟨_, _, rfl, ?_, ?_, rfl, ?_⟩
    · simp [Frame.gluesAfter, hframe, Cursor.glueIf, Cursor.advance]
    · simp [Frame.gluesAfter, hframe, Cursor.glueIf, Cursor.advance]
    · by_cases hstar : token.kind = .star <;>
        simp [Cursor.piece, Token.apartInType, Frame.gluesBefore, hframe, hstar, Cursor.glueIf,
          hglued]

private theorem foldl_placeAll_type {frame : Frame} (hframe : frame.kind = .type) (isFirst : Bool)
    (before : Option Kind) (tokens : List Token) {cursor : Cursor} (hglued : cursor.glued = false)
    (text : String) :
    (Tree.placeAll frame isFirst before (tokens.map Tree.leaf) cursor).2.foldl Tree.inlineWrite
        text =
      text ++ Token.spaced Token.apartInType cursor.previous tokens := by
  induction tokens generalizing isFirst before cursor text with
  | nil => simp [Tree.placeAll, Token.spaced]
  | cons token rest ih =>
    have henter : (frame.enter before (.leaf token) cursor).glued = false ∧
        (frame.enter before (.leaf token) cursor).previous = cursor.previous := by
      simp [Frame.enter, Tree.isNode, Cursor.glueIf, hglued]
    obtain ⟨next, piece, hplace, hnext, hprevious, htoken, hgap⟩ := placeToken_type hframe isFirst
      (rest.map Tree.leaf).isEmpty token henter.1
    have hleave : frame.leave (.leaf token) next = next := by
      simp [Frame.leave, Tree.isNode, Cursor.requestLineIf]
    rw [List.map_cons, Tree.placeAll, Tree.place, Option.getD_some, hplace]
    simp only [List.foldl_append, List.foldl_cons, List.foldl_nil, hleave]
    rw [ih _ _ hnext, hprevious, Tree.inlineWrite, htoken, hgap, henter.2, Token.spaced]
    simp only [String.append_assoc]

/-- A type that is a row of tokens is written as that row. -/
theorem TypeExpr.text_tokens (tokens : List Token) :
    (TypeExpr.tokens tokens).text = Token.spaced Token.apartInType none tokens := by
  rw [text, toTree, Tree.inline, Tree.pieces, parts, Tree.plain, Tree.place,
    foldl_placeAll_type rfl true none tokens rfl, String.empty_append]
  rfl

/-- A name without type arguments is written with empty brackets behind it. -/
theorem TypeExpr.text_applied_nil (name : String) :
    (applied name []).text = (parse name).text ++ "<>" := by
  have hglued (previous : Option Token) : ∀ kind ∈ [Kind.leftAngle, .rightAngle],
      (Token.punct kind).apartInType previous = false := by
    cases previous <;> simp [Token.apartInType, needsSpace, Token.punct, Kind.hugsLeft]
  have htokens : (applied name []).text =
      (tokens (Token.significant name ++ [.punct .leftAngle, .punct .rightAngle])).text := by
    rw [text, text, toTree, toTree, parts, List.map_append]
    rfl
  rw [htokens, text_tokens, Token.spaced_append, parse, text_tokens, Token.spaced,
    hglued _ _ (by decide), Token.spaced, hglued _ _ (by decide)]
  rfl

end Written

/-- How the names of types are spelled: a row of words and marks that starts with a word, by its
last token and whether a bracket stands behind a star in it. -/
inductive TypeName : String → Token → Bool → Prop
  | word {token : Token} (h : token.IsWord) : TypeName token.text token false
  | mark {text : String} {last : Token} {splits : Bool} {kind : Kind}
      (h : TypeName text last splits) (hkind : kind ∈ Token.typeMarks)
      (hbracket : kind = .leftBracket → last.takesBracket = true ∨ last.kind = .star)
      (hquestion : kind = .question → last.kind ≠ .question) :
      TypeName (text ++ kind.spelling) (.punct kind)
        (splits || (last.kind == .star && kind == .leftBracket))
  | name {text other : String} {last final : Token} {splits again : Bool}
      (h : TypeName text last splits) (hlast : last.kind.hugsRight = true)
      (hother : TypeName other final again) : TypeName (text ++ other) final (splits || again)
  | item {text other : String} {last final : Token} {splits again : Bool}
      (h : TypeName text last splits) (hlast : last.kind = .comma)
      (hother : TypeName other final again) :
      TypeName (text ++ " " ++ other) final (splits || again)

section Rows

namespace Token

/-- Whether a token of a name is read as such behind another one. -/
def ReadsBehind (token next : Token) : Prop :=
  next.apartInName (some token) = true ∨ token.StopsBefore next

/-- Whether a token stands apart from another one in a name exactly if it does in a type. -/
def AgreesBehind (token next : Token) : Prop :=
  next.apartInType (some token) = next.apartInName (some token)

end Token

/-- A row of tokens that is read from a name and is written as the name unless it splits it. -/
structure TypeRow (tokens : List Token) (text : String) (splits : Bool) : Prop where
  text_eq : Token.spaced Token.apartInName none tokens = text
  inType : ∀ token ∈ tokens, token.InType
  reads : tokens.IsChain Token.ReadsBehind
  agrees : tokens.IsChain Token.AgreesBehind ↔ splits = false

theorem TypeRow.append {front rest : List Token} {last next : Token} {text other : String}
    {splits again split : Bool} (h : TypeRow (front ++ [last]) text splits)
    (hother : TypeRow (next :: rest) other again) (hreads : last.ReadsBehind next)
    (hagrees : last.AgreesBehind next ↔ split = false) :
    TypeRow (front ++ [last] ++ next :: rest)
      (text ++ (if next.apartInName (some last) then " " else "") ++ other)
      (splits || split || again) where
  text_eq := by
    have hnone : next.apartInName none = false := by simp [Token.apartInName]
    rw [Token.spaced_append, h.text_eq, ← hother.text_eq, Token.spaced, Token.spaced, hnone]
    simp [String.append_assoc]
  inType := List.forall_mem_append.mpr ⟨h.inType, hother.inType⟩
  reads := h.reads.append hother.reads (by simpa using hreads)
  agrees := by
    rw [List.isChain_append, h.agrees, hother.agrees]
    simp [hagrees, and_left_comm, and_comm]

private theorem word_apart {next : Token} (h : next.IsWord) (last : Token) :
    next.apartInName (some last) = (last.kind == .comma) := by
  rcases h.kind_eq with hkind | hkind <;> simp [Token.apartInName, hkind]

private theorem mark_apart {kind : Kind} (h : kind ∈ Token.typeMarks) (previous : Option Token) :
    (Token.punct kind).apartInName previous = false := by
  have hword : kind ≠ .identifier ∧ kind ≠ .keyword := by
    constructor <;> (rintro rfl; exact absurd h (by decide))
  simp [Token.apartInName, Token.punct, hword]

/-- A word stands apart from a comma, and from nothing else that it can come behind. -/
private theorem agreesBehind_word {last next : Token}
    (hlast : last.kind.hugsRight = true ∨ last.kind = .comma) (hnext : next.IsWord) :
    last.AgreesBehind next := by
  rw [Token.AgreesBehind, word_apart hnext]
  rcases hlast with hlast | hlast
  · have hcomma : last.kind ≠ .comma := by rintro h; simp [h, Kind.hugsRight] at hlast
    simp [Token.apartInType, needsSpace, hlast, hcomma]
  · rcases hnext.kind_eq with hk | hk <;>
      simp [Token.apartInType, needsSpace, hlast, hk, Kind.hugsLeft, Kind.hugsRight]

/-- No mark stands apart in a name. In a type a bracket stands apart from a star. -/
private theorem agreesBehind_mark {last : Token} {kind : Kind} (hkind : kind ∈ Token.typeMarks)
    (hbracket : kind = .leftBracket → last.takesBracket = true ∨ last.kind = .star) :
    last.AgreesBehind (.punct kind) ↔ (last.kind == .star && kind == .leftBracket) = false := by
  rw [Token.AgreesBehind, mark_apart hkind]
  by_cases hk : kind = .leftBracket
  · subst hk
    rcases hbracket rfl with hlast | hlast
    · have hstar : last.kind ≠ .star := by rintro h; simp [h, Token.takesBracket] at hlast
      simp [Token.apartInType, needsSpace, Token.punct, hlast, hstar]
    · simp [Token.apartInType, needsSpace, Token.punct, hlast, Token.takesBracket, Kind.hugsLeft,
        Kind.hugsRight]
  · have hglued : kind = .star ∨ kind.hugsLeft = true := by
      simp only [Token.typeMarks, List.mem_cons, List.not_mem_nil, or_false] at hkind
      rcases hkind with rfl | rfl | rfl | rfl | rfl | rfl | rfl | rfl | rfl <;>
        simp_all [Kind.hugsLeft]
    rcases hglued with hglued | hglued <;>
      simp [Token.apartInType, needsSpace, Token.punct, hglued, hk]

/-- A name is a row of tokens. -/
theorem TypeName.row {text : String} {last : Token} {splits : Bool}
    (h : TypeName text last splits) :
    ∃ front, TypeRow (front ++ [last]) text splits ∧
      ∃ first rest, front ++ [last] = first :: rest ∧ first.IsWord := by
  -- a name that is put behind another one starts with a word, so that is where they meet
  have hjoin {front behind rest : List Token} {last final next : Token} {text other : String}
      {splits again : Bool} (hrow : TypeRow (front ++ [last]) text splits)
      (hnext : TypeRow (behind ++ [final]) other again) (hbehind : behind ++ [final] = next :: rest)
      (hreads : last.ReadsBehind next) (hagrees : last.AgreesBehind next) :
      TypeRow (front ++ [last] ++ behind ++ [final])
        (text ++ (if next.apartInName (some last) then " " else "") ++ other)
        (splits || again) := by
    rw [hbehind] at hnext
    have happend := hrow.append hnext hreads (show _ ↔ false = false by simpa using hagrees)
    rw [← hbehind] at happend
    simpa using happend
  induction h with
  | @word token h =>
    refine ⟨[], ⟨?_, ?_, by simp, by simp⟩, token, [], rfl, h⟩
    · simp [Token.spaced, Token.apartInName]
    · simpa using Token.InType.word h
  | @mark text last splits kind h hkind hbracket hquestion ih =>
    obtain ⟨front, hrow, first, rest, hfront, hfirst⟩ := ih
    have hmark : TypeRow [.punct kind] kind.spelling false := by
      refine ⟨?_, by simpa using Token.InType.mark hkind, by simp, by simp⟩
      rw [Token.spaced, mark_apart hkind]
      simp [Token.spaced, Token.punct]
    have happend := hrow.append hmark (.inr (Token.stopsBefore_mark hkind hquestion))
      (agreesBehind_mark hkind hbracket)
    rw [mark_apart hkind] at happend
    refine ⟨front ++ [last], by simpa using happend, first, rest ++ [.punct kind], ?_, hfirst⟩
    rw [hfront, List.cons_append]
  | @name text other last final splits again h hlast hother ih ihother =>
    obtain ⟨front, hrow, first, rest, hfront, hfirst⟩ := ih
    obtain ⟨behind, hnext, next, more, hbehind, hword⟩ := ihother
    have hcomma : last.kind ≠ .comma := by rintro hk; simp [hk, Kind.hugsRight] at hlast
    have hkind : last.kind ≠ .identifier ∧ last.kind ≠ .keyword := by
      constructor <;> (rintro hk; simp [hk, Kind.hugsRight] at hlast)
    have happend := hjoin hrow hnext hbehind (.inr (Token.stopsBefore_word hword hkind))
      (agreesBehind_word (.inl hlast) hword)
    rw [word_apart hword] at happend
    refine ⟨front ++ [last] ++ behind, by simpa [hcomma] using happend, first,
      rest ++ behind ++ [final], ?_, hfirst⟩
    rw [hfront, List.cons_append, List.cons_append]
  | @item text other last final splits again h hlast hother ih ihother =>
    obtain ⟨front, hrow, first, rest, hfront, hfirst⟩ := ih
    obtain ⟨behind, hnext, next, more, hbehind, hword⟩ := ihother
    have hapart : next.apartInName (some last) = true := by simp [word_apart hword, hlast]
    have happend := hjoin hrow hnext hbehind (.inl hapart) (agreesBehind_word (.inr hlast) hword)
    rw [hapart] at happend
    refine ⟨front ++ [last] ++ behind, happend, first, rest ++ behind ++ [final], ?_, hfirst⟩
    rw [hfront, List.cons_append, List.cons_append]

/-- A name is spelled by its tokens. -/
theorem TypeName.spaced_significant {text : String} {last : Token} {splits : Bool}
    (h : TypeName text last splits) :
    Token.spaced Token.apartInName none (Token.significant text) = text := by
  obtain ⟨front, hrow, first, rest, hfront, -⟩ := h.row
  rw [hfront] at hrow
  calc Token.spaced Token.apartInName none (Token.significant text)
    _ = Token.spaced Token.apartInName none (first :: rest) := by
      rw [← hrow.text_eq, Token.significant_spaced _ hrow.inType hrow.reads]
    _ = text := hrow.text_eq

/-- A name is read as a type that is written as the name, unless a bracket behind a star splits
it. -/
theorem TypeName.text_parse_iff {text : String} {last : Token} {splits : Bool}
    (h : TypeName text last splits) : (TypeExpr.parse text).text = text ↔ splits = false := by
  obtain ⟨front, hrow, first, rest, hfront, -⟩ := h.row
  rw [hfront] at hrow
  have hparse : TypeExpr.parse text = .tokens (first :: rest) := by
    rw [TypeExpr.parse, ← hrow.text_eq, Token.significant_spaced _ hrow.inType hrow.reads]
  have hrest : ∀ token ∈ rest, token.InType := (List.forall_mem_cons.mp hrow.inType).2
  have hnone : first.apartInType none = false ∧ first.apartInName none = false := by
    simp [Token.apartInType, Token.apartInName, needsSpace]
  calc (TypeExpr.parse text).text = text
    _ ↔ Token.spaced Token.apartInType none (first :: rest) =
          Token.spaced Token.apartInName none (first :: rest) := by
      rw [hparse, TypeExpr.text_tokens, hrow.text_eq]
    _ ↔ Token.spaced Token.apartInType (some first) rest =
          Token.spaced Token.apartInName (some first) rest := by
      simp [Token.spaced, hnone]
    _ ↔ (first :: rest).IsChain Token.AgreesBehind := Token.spaced_eq_iff _ _ hrest first
    _ ↔ splits = false := hrow.agrees

end Rows

namespace TypeName

variable {text other : String} {last final : Token} {splits again : Bool}

theorem ne_empty (h : TypeName text last splits) : text ≠ "" := by
  induction h with
  | word h =>
    obtain ⟨first, rest, htext, -⟩ := (Token.InType.word h).first
    rintro hempty
    simp [hempty] at htext
  | mark _ _ _ _ ih => simp [ih]
  | name _ _ _ ih => simp [ih]
  | item _ _ _ ih => simp [ih]

/-- A mark that can stand behind any token. -/
private theorem plainMark (h : TypeName text last splits) {kind : Kind}
    (hkind : kind ∈ [.leftAngle, .rightAngle, .rightBracket, .comma, .dot, .colonColon, .star]) :
    TypeName (text ++ kind.spelling) (.punct kind) splits := by
  have hplain : ∀ mark ∈ [.leftAngle, .rightAngle, .rightBracket, .comma, .dot, .colonColon, .star],
      mark ∈ Token.typeMarks ∧ mark ≠ .leftBracket ∧ mark ≠ .question := by decide
  obtain ⟨hmark, hbracket, hquestion⟩ := hplain kind hkind
  have hglued : (last.kind == .star && kind == .leftBracket) = false := by simp [hbracket]
  have hfinal := h.mark hmark (fun hk => absurd hk hbracket) (fun hk => absurd hk hquestion)
  rwa [hglued, Bool.or_false] at hfinal

theorem global (h : TypeName text last splits) : TypeName ("global::" ++ text) last splits := by
  have hword : (Token.keyword "global").IsWord := .plain rfl (by decide) (by decide) (by decide)
  exact ((TypeName.word hword).plainMark (show .colonColon ∈ _ by decide)).name rfl h

/-- Whether two names with a separator between them are a name. -/
def Joins (separator : String) : Prop :=
  ∀ {text other : String} {last final : Token} {splits again : Bool},
    TypeName text last splits → TypeName other final again →
      TypeName (text ++ separator ++ other) final (splits || again)

theorem dot : Joins "." := by
  intro text other last final splits again h hother
  exact (h.plainMark (show .dot ∈ _ by decide)).name rfl hother

theorem comma : Joins ", " := by
  intro text other last final splits again h hother
  have hgap : text ++ ", " = text ++ "," ++ " " := by rw [String.append_assoc]; rfl
  rw [hgap]
  exact (h.plainMark (show .comma ∈ _ by decide)).item rfl hother

theorem question (h : TypeName text last splits) (hlast : last.kind ≠ .question) :
    TypeName (text ++ "?") (.punct .question) splits := by
  have hmark := h.mark (show .question ∈ Token.typeMarks by decide) (by simp) fun _ => hlast
  have hglued : (last.kind == .star && Kind.question == .leftBracket) = false := by simp
  rwa [hglued, Bool.or_false] at hmark

theorem brackets (h : TypeName text last splits)
    (hlast : last.takesBracket = true ∨ last.kind = .star) :
    TypeName (text ++ "[]") (.punct .rightBracket) (splits || last.kind == .star) := by
  have hopen := h.mark (show .leftBracket ∈ Token.typeMarks by decide) (fun _ => hlast) (by simp)
  have hclosed := hopen.plainMark (show .rightBracket ∈ _ by decide)
  simpa [Kind.spelling, String.append_assoc] using hclosed

theorem star (h : TypeName text last splits) : TypeName (text ++ "*") (.punct .star) splits :=
  h.plainMark (show .star ∈ _ by decide)

theorem angled (h : TypeName text last splits) (hother : TypeName other final again) :
    TypeName (text ++ ("<" ++ other ++ ">")) (.punct .rightAngle) (splits || again) := by
  have hopen := (h.plainMark (show .leftAngle ∈ _ by decide)).name rfl hother
  have hclosed := hopen.plainMark (show .rightAngle ∈ _ by decide)
  simpa [Kind.spelling, String.append_assoc] using hclosed

/-- The name of a generic type without arguments. -/
theorem unbound (h : TypeName text last splits) (count : Nat) :
    TypeName (text ++ ("<" ++ String.ofList (List.replicate count ',') ++ ">"))
      (.punct .rightAngle) splits := by
  have hcommas : ∃ final, TypeName (text ++ "<" ++ String.ofList (List.replicate count ','))
      final splits := by
    induction count with
    | zero =>
      have hopen := h.plainMark (show .leftAngle ∈ _ by decide)
      exact ⟨.punct .leftAngle, by simpa [Kind.spelling] using hopen⟩
    | succ count ih =>
      obtain ⟨final, hfinal⟩ := ih
      have hcomma := hfinal.plainMark (show .comma ∈ _ by decide)
      refine ⟨.punct .comma, ?_⟩
      simpa [List.replicate_succ', Kind.spelling, String.append_assoc] using hcomma
  obtain ⟨final, hfinal⟩ := hcommas
  have hclosed := hfinal.plainMark (show .rightAngle ∈ _ by decide)
  simpa [Kind.spelling, String.append_assoc] using hclosed

/-- Names with separators between them. -/
theorem Joins.join {separator : String} (hseparator : Joins separator) {α : Type}
    (text : α → String) (splits : α → Bool) {items : List α} (hne : items ≠ [])
    (h : ∀ item ∈ items, ∃ last, TypeName (text item) last (splits item)) :
    ∃ last, TypeName (Text.join separator (items.map text)) last (items.any splits) := by
  induction items with
  | nil => exact absurd rfl hne
  | cons item rest ih =>
    obtain ⟨last, hitem⟩ := h item (by simp)
    cases rest with
    | nil => exact ⟨last, by simpa [Text.join] using hitem⟩
    | cons next rest =>
      obtain ⟨final, hrest⟩ := ih (by simp) fun other hm => h other (by simp [hm])
      have hjoined := hseparator hitem hrest
      refine ⟨final, ?_⟩
      simpa [Text.join, String.intercalate_cons_cons] using hjoined

end TypeName

end SourceGen
