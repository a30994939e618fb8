import SourceGen.Syntax.Token
import Mathlib.Data.List.Chain
import Mathlib.Data.List.TakeWhile

/-! How texts made of the tokens of type names are read. Such a token is found again if what comes
behind it cannot continue it. -/

namespace SourceGen

namespace Token

/-- Whether a text is read as one identifier. -/
def IsIdentifier (text : String) : Prop :=
  tokenize text = [ident text]

/-- Identifiers and keywords, by their characters. -/
inductive IsWord (token : Token) : Prop
  | plain {first : Char} {rest : List Char} (htext : token.text.toList = first :: rest)
      (hkind : token.kind = wordKind token.text) (hfirst : isWordStart first = true)
      (hrest : rest.all isWordPart = true)
  | verbatim {first : Char} {rest : List Char} (htext : token.text.toList = '@' :: first :: rest)
      (hkind : token.kind = .identifier) (hfirst : isWordStart first = true)
      (hrest : rest.all isWordPart = true)

/-- The kinds of the punctuation in the names of types. -/
def typeMarks : List Kind :=
  [.leftAngle, .rightAngle, .leftBracket, .rightBracket, .comma, .dot, .colonColon, .question,
    .star]

/-- The characters that this punctuation starts with. -/
def markStarts : List Char :=
  ['<', '>', '[', ']', ',', '.', ':', '?', '*']

/-- The tokens that the names of types are made of. -/
inductive InType : Token → Prop
  | word {token : Token} (h : token.IsWord) : InType token
  | mark {kind : Kind} (h : kind ∈ typeMarks) : InType (punct kind)

/-- Whether a character cannot continue a token of a type name. -/
def stopsAt (token : Token) (c : Char) : Bool :=
  match token.kind with
  | .identifier | .keyword => !isWordPart c
  | .leftAngle | .rightAngle => c != '='
  | .question => c != '?'
  | _ => true

/-- Whether the text of a token cannot continue the token in front of it. -/
def StopsBefore (token next : Token) : Prop :=
  ∀ c ∈ next.text.toList.head?, token.stopsAt c = true

section Words

theorem ofChars_cons (first : Char) (rest : List Char) :
    ofChars (first :: rest) =
      ⟨(lexeme first rest).1, String.ofList (first :: rest.take (lexeme first rest).2)⟩ ::
        ofChars (rest.drop (lexeme first rest).2) := by
  rw [ofChars]

/-- A token is read in front of a text where the longest token is as long as it is. -/
theorem ofChars_append {token : Token} {first : Char} {part rest : List Char}
    (htext : token.text.toList = first :: part)
    (hread : lexeme first (part ++ rest) = (token.kind, part.length)) :
    ofChars (token.text.toList ++ rest) = token :: ofChars rest := by
  rw [htext, List.cons_append, ofChars_cons, hread, List.take_left, List.drop_left, ← htext,
    String.ofList_toList]

theorem isSpace_iff {c : Char} : isSpace c = true ↔ c = ' ' ∨ c = '\t' ∨ c = '\r' ∨ c = '\n' := by
  simp [isSpace, or_assoc]

/-- Blanks are no parts of words and numbers. -/
theorem isSpace_ends {c : Char} (h : isSpace c = true) :
    isWordStart c = false ∧ isWordPart c = false ∧ isDigitOrSeparator c = false ∧
      c.isDigit = false ∧ c.isAlpha = false ∧ c ≠ '.' := by
  rcases isSpace_iff.mp h with rfl | rfl | rfl | rfl <;> decide

private theorem wordStart_not_space {c : Char} (h : isWordStart c = true) : isSpace c = false := by
  by_contra hspace
  rw [Bool.not_eq_false] at hspace
  simp [(isSpace_ends hspace).1] at h

theorem lexeme_word {first : Char} (h : isWordStart first = true) (rest : List Char) :
    lexeme first rest =
      (wordKind (String.ofList (first :: rest.take (countWhile isWordPart rest))),
        countWhile isWordPart rest) := by
  simp only [lexeme, wordStart_not_space h, h, Bool.false_eq_true, if_false, if_true]

theorem isAlpha_digit {c : Char} (h : c.isDigit = true) : c.isAlpha = false := by
  have hhigh : c.toNat ≤ 57 := (Char.isDigit_iff_toNat.mp h).2
  by_contra halpha
  rw [Bool.not_eq_false] at halpha
  have hlow : 65 ≤ c.toNat := by
    rcases Bool.or_eq_true_iff.mp halpha with hupper | hlower
    · exact UInt32.le_iff_toNat_le.mp (of_decide_eq_true hupper).1
    · have hlow := UInt32.le_iff_toNat_le.mp
        (of_decide_eq_true (Bool.and_eq_true_iff.mp hlower).1)
      exact Nat.le_trans (by decide) hlow
  omega

theorem lexeme_digit {first : Char} (h : first.isDigit = true) (rest : List Char) :
    lexeme first rest = (.numericLiteral, numberLength rest) := by
  have hspace : isSpace first = false := by
    by_contra hspace
    rw [Bool.not_eq_false] at hspace
    simp [(isSpace_ends hspace).2.2.2.1] at h
  have hword : isWordStart first = false := by
    have hline : first ≠ '_' := by
      rintro rfl
      exact absurd h (by decide)
    have hascii : first.toNat < 0x80 :=
      Nat.lt_of_le_of_lt (Char.isDigit_iff_toNat.mp h).2 (by decide)
    simp [isWordStart, Text.isLetter, hline, hascii, isAlpha_digit h]
  rw [lexeme.eq_def, hspace, hword, h]
  rfl

theorem countWhile_append {p : Char → Bool} {word : List Char} (h : word.all p = true)
    (rest : List Char) : countWhile p (word ++ rest) = word.length + countWhile p rest := by
  rw [countWhile, List.takeWhile_append_of_pos (List.all_eq_true.mp h), List.length_append]
  rfl

theorem countWhile_eq_zero {p : Char → Bool} {rest : List Char}
    (h : ∀ c ∈ rest.head?, p c = false) : countWhile p rest = 0 := by
  cases rest with
  | nil => rfl
  | cons c rest => simp [countWhile, h c rfl]

theorem IsWord.kind_eq {token : Token} (h : token.IsWord) :
    token.kind = .identifier ∨ token.kind = .keyword := by
  cases h with
  | plain _ hkind =>
    rw [hkind, wordKind]
    split <;> simp
  | verbatim _ hkind => exact .inl hkind

/-- A word goes on with the characters that words consist of. -/
theorem IsWord.lexeme_append {token : Token} (h : token.IsWord) :
    ∃ first part, token.text.toList = first :: part ∧ ∀ rest,
      (lexeme first (part ++ rest)).1 ≠ .error ∧
        (lexeme first (part ++ rest)).2 = part.length + countWhile isWordPart rest ∧
        (countWhile isWordPart rest = 0 → (lexeme first (part ++ rest)).1 = token.kind) := by
  cases h with
  | @plain first part htext hkind hfirst hpart =>
    refine ⟨first, part, htext, fun rest => ?_⟩
    rw [lexeme_word hfirst, countWhile_append hpart]
    refine ⟨?_, rfl, fun h => ?_⟩
    · simp only [wordKind]
      split <;> simp
    · rw [h, Nat.add_zero, List.take_left, ← htext, String.ofList_toList, hkind]
  | @verbatim first part htext hkind hfirst hpart =>
    refine ⟨'@', first :: part, htext, fun rest => ?_⟩
    have hread : lexeme '@' (first :: part ++ rest) =
        (.identifier, 1 + countWhile isWordPart (part ++ rest)) := by
      change verbatimTail (first :: part ++ rest) = _
      simp [verbatimTail, hfirst]
    rw [hread, countWhile_append hpart, List.length_cons]
    exact ⟨by simp, by dsimp only; omega, fun _ => hkind.symm⟩

private theorem IsWord.stopsAt {token : Token} (h : token.IsWord) (c : Char) :
    token.stopsAt c = !isWordPart c := by
  rcases h.kind_eq with hkind | hkind <;> simp [Token.stopsAt, hkind]

/-- A word is read up to its end. -/
private theorem IsWord.ofChars_append {token : Token} (h : token.IsWord) {rest : List Char}
    (hrest : ∀ c ∈ rest.head?, token.stopsAt c = true) :
    ofChars (token.text.toList ++ rest) = token :: ofChars rest := by
  have hend : countWhile isWordPart rest = 0 :=
    countWhile_eq_zero (by simpa only [h.stopsAt, Bool.not_eq_true'] using hrest)
  obtain ⟨first, part, htext, hread⟩ := h.lexeme_append
  obtain ⟨-, hlength, hkind⟩ := hread rest
  rw [hend, Nat.add_zero] at hlength
  exact Token.ofChars_append htext (Prod.ext (hkind hend) hlength)

theorem verbatimTail_kind (chars : List Char) :
    (verbatimTail chars).1 = .identifier ∨ (verbatimTail chars).1 = .error := by
  unfold verbatimTail
  split
  · exact .inr rfl
  · split <;> simp

theorem stringTail_kind (chars : List Char) :
    (stringTail chars).1 = .stringLiteral ∨ (stringTail chars).1 = .error := by
  fun_induction stringTail chars <;> simp_all

theorem charTail_kind (chars : List Char) :
    (charTail chars).1 = .charLiteral ∨ (charTail chars).1 = .error := by
  unfold charTail
  split <;> simp

theorem drop_countWhile {p : Char → Bool} {chars : List Char}
    (h : chars.drop (countWhile p chars) = []) : chars.all p = true := by
  refine List.all_eq_true.mpr (List.takeWhile_eq_self_iff.mp ?_)
  refine (List.takeWhile_prefix p).eq_of_length_le ?_
  exact List.drop_eq_nil_iff.mp h

end Words

section Rows

/-- The texts of tokens in a row, with a space in front of those that stand apart from the one
before them. -/
def spaced (apart : Option Token → Token → Bool) (previous : Option Token) : List Token → String
  | [] => ""
  | token :: rest =>
    (if apart previous token then " " else "") ++ token.text ++ spaced apart (some token) rest

theorem spaced_append (apart : Option Token → Token → Bool) (previous : Option Token)
    (tokens others : List Token) :
    spaced apart previous (tokens ++ others) =
      spaced apart previous tokens ++ spaced apart (tokens.getLast?.or previous) others := by
  induction tokens generalizing previous with
  | nil => simp [spaced]
  | cons token rest ih =>
    rw [List.cons_append, spaced, ih, spaced, List.getLast?_cons]
    cases rest.getLast? <;> simp [String.append_assoc]

private theorem mark_spelling {kind : Kind} (h : kind ∈ typeMarks) :
    ∃ first more, kind.spelling.toList = first :: more ∧ first ∈ markStarts ∧
      (first = '?' → kind = .question) := by
  simp only [typeMarks, List.mem_cons, List.not_mem_nil, or_false] at h
  rcases h with rfl | rfl | rfl | rfl | rfl | rfl | rfl | rfl | rfl <;>
    exact ⟨_, _, rfl, by decide, by decide⟩

private theorem lexeme_mark {first : Char} (h : first ∈ markStarts) (rest : List Char) :
    lexeme first rest = operatorTail first rest := by
  simp only [markStarts, List.mem_cons, List.not_mem_nil, or_false] at h
  rcases h with rfl | rfl | rfl | rfl | rfl | rfl | rfl | rfl | rfl <;> rfl

/-- Angle brackets and question marks start longer operators too, other marks do not. -/
private theorem operatorTail_mark {kind : Kind} (h : kind ∈ typeMarks) {rest : List Char}
    (hrest : ∀ c ∈ rest.head?, (punct kind).stopsAt c = true) :
    ∃ first more, kind.spelling.toList = first :: more ∧ first ∈ markStarts ∧
      operatorTail first (more ++ rest) = (kind, more.length) := by
  simp only [typeMarks, List.mem_cons, List.not_mem_nil, or_false] at h
  rcases h with rfl | rfl | rfl | rfl | rfl | rfl | rfl | rfl | rfl
  · exact ⟨'<', [], rfl, by decide, by cases rest <;> simp_all [operatorTail, stopsAt, punct]⟩
  · exact ⟨'>', [], rfl, by decide, by cases rest <;> simp_all [operatorTail, stopsAt, punct]⟩
  · exact ⟨'[', [], rfl, by decide, rfl⟩
  · exact ⟨']', [], rfl, by decide, rfl⟩
  · exact ⟨',', [], rfl, by decide, rfl⟩
  · exact ⟨'.', [], rfl, by decide, rfl⟩
  · exact ⟨':', [':'], rfl, by decide, rfl⟩
  · exact ⟨'?', [], rfl, by decide, by cases rest <;> simp_all [operatorTail, stopsAt, punct]⟩
  · exact ⟨'*', [], rfl, by decide, rfl⟩

/-- A token of a type name is read up to its end. -/
theorem InType.ofChars_append {token : Token} (h : token.InType) {rest : List Char}
    (hrest : ∀ c ∈ rest.head?, token.stopsAt c = true) :
    ofChars (token.text.toList ++ rest) = token :: ofChars rest := by
  cases h with
  | word h => exact h.ofChars_append hrest
  | @mark kind h =>
    obtain ⟨first, more, htext, hfirst, hoperator⟩ := operatorTail_mark h hrest
    exact Token.ofChars_append htext (by rw [lexeme_mark hfirst, hoperator, punct])

/-- The first character of a token of a type name. -/
theorem InType.first {token : Token} (h : token.InType) :
    ∃ first rest, token.text.toList = first :: rest ∧ isSpace first = false := by
  cases h with
  | word h =>
    cases h with
    | plain htext _ hfirst => exact ⟨_, _, htext, wordStart_not_space hfirst⟩
    | verbatim htext => exact ⟨_, _, htext, by decide⟩
  | mark h =>
    obtain ⟨first, more, htext, hfirst, -⟩ := mark_spelling h
    have hspace : markStarts.all (!isSpace ·) = true := by decide
    exact ⟨first, more, htext, by simpa using List.all_eq_true.mp hspace first hfirst⟩

theorem InType.kind_ne {token : Token} (h : token.InType) : token.kind ≠ .whitespace := by
  cases h with
  | word h => rcases h.kind_eq with hk | hk <;> simp [hk]
  | mark h =>
    rintro rfl
    exact absurd h (by decide)

/-- A mark continues no token but a question mark that it repeats. -/
theorem stopsBefore_mark {token : Token} {kind : Kind} (h : kind ∈ typeMarks)
    (hquestion : kind = .question → token.kind ≠ .question) : token.StopsBefore (punct kind) := by
  obtain ⟨first, more, htext, hfirst, hmark⟩ := mark_spelling h
  have hpart : markStarts.all (fun c => !isWordPart c && c != '=') = true := by decide
  obtain ⟨hword, hequal⟩ : isWordPart first = false ∧ first ≠ '=' := by
    simpa using List.all_eq_true.mp hpart first hfirst
  have hstop : token.stopsAt first = true := by
    unfold stopsAt
    split
    · simp [hword]
    · simp [hword]
    · simp [hequal]
    · simp [hequal]
    · next hk => simpa using fun hc => hquestion (hmark hc) hk
    · rfl
  simpa [StopsBefore, punct, htext] using hstop

/-- A word continues nothing but a word. -/
theorem stopsBefore_word {token next : Token} (hnext : next.IsWord)
    (hkind : token.kind ≠ .identifier ∧ token.kind ≠ .keyword) : token.StopsBefore next := by
  obtain ⟨first, more, htext, hfirst⟩ : ∃ first more, next.text.toList = first :: more ∧
      first ≠ '=' ∧ first ≠ '?' := by
    cases hnext with
    | plain htext _ hfirst =>
      exact ⟨_, _, htext, by rintro rfl; exact absurd hfirst (by decide),
        by rintro rfl; exact absurd hfirst (by decide)⟩
    | verbatim htext => exact ⟨_, _, htext, by decide, by decide⟩
  have hstop : token.stopsAt first = true := by
    unfold stopsAt
    split <;> simp_all
  simpa [StopsBefore, htext] using hstop

/-- A token of a type name is found in front of a text that cannot continue it. -/
private theorem significant_append {token : Token} (h : token.InType) {text : String}
    (hstop : ∀ c ∈ text.toList.head?, token.stopsAt c = true) :
    significant (token.text ++ text) = token :: significant text := by
  rw [significant, tokenize, String.toList_append, h.ofChars_append hstop,
    List.filter_cons_of_pos (by simpa using h.kind_ne), significant, tokenize]

/-- Blanks at the front of a text are dropped. -/
private theorem filter_ofChars_drop (chars : List Char) :
    (ofChars (chars.drop (countWhile isSpace chars))).filter (·.kind ≠ .whitespace) =
      (ofChars chars).filter (·.kind ≠ .whitespace) := by
  cases chars with
  | nil => rfl
  | cons c chars =>
    by_cases hspace : isSpace c = true
    · have hlexeme : lexeme c chars = (.whitespace, countWhile isSpace chars) := by
        rw [lexeme.eq_def, if_pos hspace]
      have hcount : countWhile isSpace (c :: chars) = countWhile isSpace chars + 1 := by
        simp [countWhile, hspace]
      rw [hcount, List.drop_succ_cons, ofChars_cons, hlexeme]
      simp
    · rw [countWhile_eq_zero (by simpa using hspace), List.drop_zero]

theorem significant_space (text : String) : significant (" " ++ text) = significant text := by
  have hsplit : (" " ++ text).toList = ' ' :: text.toList := by simp
  have hlexeme : lexeme ' ' text.toList = (.whitespace, countWhile isSpace text.toList) := rfl
  rw [significant, tokenize, hsplit, ofChars_cons, hlexeme, List.filter_cons_of_neg (by simp),
    filter_ofChars_drop, significant, tokenize]

theorem stopsAt_space (token : Token) : token.stopsAt ' ' = true := by
  unfold stopsAt
  split <;> decide

/-- Tokens are read back from a row of them if each of them stands apart or cannot continue the one
before it. -/
theorem significant_spaced (apart : Option Token → Token → Bool) {tokens : List Token}
    (htokens : ∀ token ∈ tokens, token.InType)
    (hrow : tokens.IsChain fun token next =>
      apart (some token) next = true ∨ token.StopsBefore next)
    (previous : Option Token) : significant (spaced apart previous tokens) = tokens := by
  induction tokens generalizing previous with
  | nil => simp [spaced, significant, tokenize, ofChars]
  | cons token rest ih =>
    obtain ⟨htoken, hrest⟩ := List.forall_mem_cons.mp htokens
    have hstop : ∀ c ∈ (spaced apart (some token) rest).toList.head?, token.stopsAt c = true := by
      cases rest with
      | nil => simp [spaced]
      | cons next rest =>
        obtain ⟨first, more, hnext, -⟩ := (hrest next (by simp)).first
        by_cases hapart : apart (some token) next = true
        · simp [spaced, hapart, stopsAt_space]
        · have hbefore : token.StopsBefore next := hrow.rel.resolve_left hapart
          simpa [spaced, hapart, hnext, StopsBefore] using hbefore
    have hread : significant (token.text ++ spaced apart (some token) rest) = token :: rest := by
      rw [significant_append htoken hstop, ih hrest hrow.tail]
    rw [spaced, String.append_assoc]
    split
    · rw [significant_space, hread]
    · rw [String.empty_append, hread]

/-- Two ways to write a row of tokens give the same text only if they part the same tokens. -/
theorem spaced_eq_iff (apart other : Option Token → Token → Bool) {tokens : List Token}
    (htokens : ∀ token ∈ tokens, token.InType) (previous : Token) :
    spaced apart (some previous) tokens = spaced other (some previous) tokens ↔
      (previous :: tokens).IsChain fun token next =>
        apart (some token) next = other (some token) next := by
  induction tokens generalizing previous with
  | nil => simp [spaced]
  | cons token rest ih =>
    obtain ⟨htoken, hrest⟩ := List.forall_mem_cons.mp htokens
    rw [List.isChain_cons_cons, ← ih hrest, spaced, spaced]
    obtain ⟨first, more, hfirst, hspace⟩ := htoken.first
    have hne : first ≠ ' ' := by rintro rfl; exact absurd hspace (by decide)
    cases hapart : apart (some previous) token <;> cases hother : other (some previous) token
    · simp
    · simp [← String.toList_inj, hfirst, hne]
    · simp [← String.toList_inj, hfirst, hne.symm]
    · simp

end Rows

end Token

end SourceGen
