import SourceGen.Proofs.Syntax.Lexing
import Mathlib.Tactic.FinCases

/-! The forms of tokens. There are two main results: each token of a text is the longest stretch
with one of these forms where it stands, and no token depends on what stands around it. So no
character is passed over, and a token is read again from its own text and in front of a space. -/

namespace SourceGen

/-- Whether no token of a kind can reach into a text behind it: the text is empty, or starts with a
blank, which only blanks and comments take along. -/
def Kind.EndsAt (kind : Kind) (rest : List Char) : Prop :=
  ∀ c ∈ rest.head?, Token.isSpace c = true ∧ kind ≠ .whitespace ∧ kind ≠ .lineComment

theorem Kind.EndsAt.eq_nil {kind : Kind} {rest : List Char} (h : kind.EndsAt rest)
    (hkind : kind = .whitespace ∨ kind = .lineComment) : rest = [] := by
  cases rest with
  | nil => rfl
  | cons c rest =>
    obtain ⟨-, hwhitespace, hcomment⟩ := h c rfl
    exact (hkind.elim hwhitespace hcomment).elim

theorem Kind.EndsAt.countWhile_eq_zero {kind : Kind} {rest : List Char} (h : kind.EndsAt rest)
    {p : Char → Bool} (hp : ∀ c, Token.isSpace c = true → p c = false) :
    Token.countWhile p rest = 0 :=
  Token.countWhile_eq_zero fun c hc => hp c (h c hc).1

namespace Token

/-- The kinds of brackets and operators that are read. -/
def operators : List Kind :=
  [.leftBrace, .rightBrace, .leftParen, .rightParen, .leftBracket, .rightBracket, .leftAngle,
    .rightAngle, .lessEqual, .greaterEqual, .semicolon, .comma, .dot, .colon, .colonColon, .question,
    .questionQuestion, .questionQuestionEqual, .equal, .equalEqual, .notEqual, .fatArrow, .plus,
    .minus, .star, .amp, .ampAmp, .pipePipe, .pipe, .bang, .plusPlus, .minusMinus]

/-- The characters that they start with. -/
def operatorStarts : List Char :=
  ['\x7b', '\x7d', '(', ')', '[', ']', '<', '>', ';', ',', '.', ':', '?', '=', '!', '+', '-', '*',
    '&', '|']

/-- What stands behind the whole part of a number: nothing, or a point and digits. -/
inductive IsFraction : List Char → Prop
  | none : IsFraction []
  | digits {first : Char} {rest : List Char} (hfirst : first.isDigit = true)
      (hrest : rest.all Char.isDigit = true) : IsFraction ('.' :: first :: rest)

/-- What stands between the quotes of a string. A backslash takes the character behind it along. -/
inductive IsQuoted : List Char → Prop
  | nil : IsQuoted []
  | plain {c : Char} {rest : List Char} (hquote : c ≠ '"') (hslash : c ≠ '\\') (hline : c ≠ '\n')
      (hrest : IsQuoted rest) : IsQuoted (c :: rest)
  | escape {c : Char} {rest : List Char} (hline : c ≠ '\n') (hrest : IsQuoted rest) :
      IsQuoted ('\\' :: c :: rest)

/-- The forms of tokens. -/
inductive IsLexeme : Token → Prop
  | whitespace {first : Char} {rest : List Char} (hfirst : isSpace first = true)
      (hrest : rest.all isSpace = true) : IsLexeme ⟨.whitespace, String.ofList (first :: rest)⟩
  | lineComment {rest : List Char} (hrest : rest.all (· ≠ '\n') = true) :
      IsLexeme ⟨.lineComment, String.ofList ('/' :: '/' :: rest)⟩
  | word {token : Token} (h : token.IsWord) : IsLexeme token
  | number {first : Char} {whole fraction suffix : List Char} (hfirst : first.isDigit = true)
      (hwhole : whole.all isDigitOrSeparator = true) (hfraction : IsFraction fraction)
      (hsuffix : suffix.all Char.isAlpha = true) :
      IsLexeme ⟨.numericLiteral, String.ofList (first :: (whole ++ fraction ++ suffix))⟩
  | string {inside : List Char} (h : IsQuoted inside) :
      IsLexeme ⟨.stringLiteral, String.ofList ('"' :: (inside ++ ['"']))⟩
  | char {c : Char} (hquote : c ≠ '\'') (hslash : c ≠ '\\') (hline : c ≠ '\n') :
      IsLexeme ⟨.charLiteral, String.ofList ['\'', c, '\'']⟩
  | escapedChar {c : Char} (hline : c ≠ '\n') :
      IsLexeme ⟨.charLiteral, String.ofList ['\'', '\\', c, '\'']⟩
  | operator {kind : Kind} (h : kind ∈ operators) : IsLexeme (punct kind)

/-- Whether a token is read in front of any text, up to its end at least, and no further where it
ends. -/
def IsReadWhole (token : Token) : Prop :=
  ∃ first part, token.text.toList = first :: part ∧ ∀ rest,
    (lexeme first (part ++ rest)).1 ≠ .error ∧ part.length ≤ (lexeme first (part ++ rest)).2 ∧
      (token.kind.EndsAt rest → lexeme first (part ++ rest) = (token.kind, part.length))

section Forms

private theorem take_countWhile (p : Char → Bool) (chars : List Char) :
    (chars.take (countWhile p chars)).all p = true := by
  rw [countWhile, ← List.prefix_iff_eq_take.mp (List.takeWhile_prefix p), List.all_takeWhile]

private theorem take_fractionLength (chars : List Char) :
    IsFraction (chars.take (fractionLength chars)) := by
  unfold fractionLength
  split
  · next first rest =>
    split
    · next hfirst =>
      rw [Nat.add_comm]
      exact .digits hfirst (take_countWhile _ _)
    · exact .none
  · exact .none

private theorem isLexeme_number {first : Char} (hfirst : first.isDigit = true) (rest : List Char) :
    IsLexeme ⟨.numericLiteral, String.ofList (first :: rest.take (numberLength rest))⟩ := by
  simp only [numberLength, List.take_add]
  exact .number hfirst (take_countWhile _ _) (take_fractionLength _) (take_countWhile _ _)

private theorem isLexeme_verbatim {chars : List Char} (h : (verbatimTail chars).1 ≠ .error) :
    IsLexeme ⟨(verbatimTail chars).1, String.ofList ('@' :: chars.take (verbatimTail chars).2)⟩ := by
  cases chars with
  | nil => exact absurd rfl h
  | cons first rest =>
    by_cases hfirst : isWordStart first = true
    · simp only [verbatimTail, if_pos hfirst]
      rw [Nat.add_comm]
      exact .word (.verbatim String.toList_ofList rfl hfirst (take_countWhile _ _))
    · simp [verbatimTail, hfirst] at h

/-- A string that is read ends with the first quote that no backslash takes along. -/
theorem exists_isQuoted {chars : List Char} (h : (stringTail chars).1 = .stringLiteral) :
    ∃ inside rest, IsQuoted inside ∧ chars = inside ++ '"' :: rest := by
  fun_induction stringTail chars with
  | case3 rest => exact ⟨[], rest, .nil, rfl⟩
  | case6 c chars hline ih =>
    obtain ⟨inside, rest, hinside, rfl⟩ := ih h
    exact ⟨'\\' :: c :: inside, rest, .escape hline hinside, rfl⟩
  | case7 c chars hend hquote hline hescape ih =>
    have hslash : c ≠ '\\' := by
      rintro rfl
      cases chars with
      | nil => exact hend rfl rfl
      | cons d chars => exact hescape d chars rfl rfl
    obtain ⟨inside, rest, hinside, rfl⟩ := ih h
    exact ⟨c :: inside, rest, .plain hquote hslash hline hinside, rfl⟩
  | _ => simp at h

theorem stringTail_quoted {inside : List Char} (h : IsQuoted inside) (rest : List Char) :
    stringTail (inside ++ '"' :: rest) = (.stringLiteral, inside.length + 1) := by
  induction h with
  | nil => rfl
  | plain hquote hslash hline _ ih =>
    rw [List.cons_append, stringTail, ih]
    all_goals simp_all
  | escape hline _ ih => simp [stringTail, hline, ih]

private theorem isLexeme_string {chars : List Char} (h : (stringTail chars).1 ≠ .error) :
    IsLexeme ⟨(stringTail chars).1, String.ofList ('"' :: chars.take (stringTail chars).2)⟩ := by
  obtain ⟨inside, rest, hinside, rfl⟩ := exists_isQuoted ((stringTail_kind chars).resolve_right h)
  rw [stringTail_quoted hinside, List.take_length_add_append, List.take_succ_cons, List.take_zero]
  exact .string hinside

private theorem isLexeme_char {chars : List Char} (h : (charTail chars).1 ≠ .error) :
    IsLexeme ⟨(charTail chars).1, String.ofList ('\'' :: chars.take (charTail chars).2)⟩ := by
  unfold charTail at h ⊢
  split at h
  case h_2 hline => exact .escapedChar hline
  case h_7 hslash hquote hline => exact .char hquote hslash hline
  all_goals exact absurd rfl h

theorem operatorTail_spelled {first : Char} {rest : List Char}
    (h : (operatorTail first rest).1 ≠ .error) :
    (operatorTail first rest).1 ∈ operators ∧
      String.ofList (first :: rest.take (operatorTail first rest).2) =
        (operatorTail first rest).1.spelling := by
  unfold operatorTail at h ⊢
  split at h
  all_goals first | exact ⟨by decide, rfl⟩ | exact absurd rfl h

private theorem isLexeme_operator {first : Char} {rest : List Char}
    (h : (operatorTail first rest).1 ≠ .error) :
    IsLexeme ⟨(operatorTail first rest).1,
      String.ofList (first :: rest.take (operatorTail first rest).2)⟩ := by
  obtain ⟨hkind, htext⟩ := operatorTail_spelled h
  rw [htext]
  exact .operator hkind

/-- What is read has one of the forms, unless it is an error. -/
theorem isLexeme_lexeme {first : Char} {rest : List Char} (h : (lexeme first rest).1 ≠ .error) :
    IsLexeme ⟨(lexeme first rest).1, String.ofList (first :: rest.take (lexeme first rest).2)⟩ := by
  revert h
  unfold lexeme
  split
  · next hfirst => exact fun _ => .whitespace hfirst (take_countWhile _ _)
  split
  · next hfirst =>
    exact fun _ => .word (.plain String.toList_ofList rfl hfirst (take_countWhile _ _))
  split
  · next hfirst => exact fun _ => isLexeme_number hfirst rest
  split
  · exact isLexeme_verbatim
  · exact isLexeme_string
  · exact isLexeme_char
  · split
    · exact fun _ => .lineComment (take_countWhile _ _)
    · exact fun h => absurd rfl h
  · exact isLexeme_operator

end Forms

section Ends

private theorem isReadWhole_whitespace {first : Char} {part : List Char}
    (hfirst : isSpace first = true) (hpart : part.all isSpace = true) :
    IsReadWhole ⟨.whitespace, String.ofList (first :: part)⟩ := by
  refine ⟨first, part, String.toList_ofList, fun rest => ?_⟩
  rw [lexeme.eq_def, if_pos hfirst, countWhile_append hpart]
  refine ⟨by simp, by simp, fun h => ?_⟩
  rw [h.eq_nil (.inl rfl)]
  rfl

private theorem isReadWhole_lineComment {part : List Char} (hpart : part.all (· ≠ '\n') = true) :
    IsReadWhole ⟨.lineComment, String.ofList ('/' :: '/' :: part)⟩ := by
  refine ⟨'/', '/' :: part, String.toList_ofList, fun rest => ?_⟩
  have hread : lexeme '/' ('/' :: part ++ rest) =
      (.lineComment, countWhile (· ≠ '\n') ('/' :: part ++ rest)) := rfl
  have hall : ('/' :: part).all (· ≠ '\n') = true := by simpa using hpart
  rw [hread, countWhile_append hall]
  refine ⟨by simp, by simp, fun h => ?_⟩
  rw [h.eq_nil (.inr rfl)]
  rfl

private theorem IsWord.isReadWhole {token : Token} (h : token.IsWord) : token.IsReadWhole := by
  obtain ⟨first, part, htext, hread⟩ := h.lexeme_append
  refine ⟨first, part, htext, fun rest => ?_⟩
  obtain ⟨herror, hlength, hkind⟩ := hread rest
  refine ⟨herror, by omega, fun hend => ?_⟩
  have hzero : countWhile isWordPart rest = 0 :=
    hend.countWhile_eq_zero fun c hc => (isSpace_ends hc).2.1
  exact Prod.ext (hkind hzero) (by rw [hlength, hzero, Nat.add_zero])

private theorem letter_ends {c : Char} (h : c.isAlpha = true) :
    isDigitOrSeparator c = false ∧ c.isDigit = false ∧ c ≠ '.' := by
  have hdigit : c.isDigit = false := by
    by_contra hdigit
    rw [isAlpha_digit (by simpa using hdigit)] at h
    cases h
  have hline : c ≠ '_' := by rintro rfl; exact absurd h (by decide)
  have hpoint : c ≠ '.' := by rintro rfl; exact absurd h (by decide)
  exact ⟨by simp [isDigitOrSeparator, hdigit, hline], hdigit, hpoint⟩

private theorem fractionLength_eq_zero {first : Char} (h : first ≠ '.') (rest : List Char) :
    fractionLength (first :: rest) = 0 := by
  simp [fractionLength, h]

private theorem numberLength_whole {whole : List Char} (h : whole.all isDigitOrSeparator = true)
    (rest : List Char) : numberLength (whole ++ rest) = whole.length + numberLength rest := by
  simp only [numberLength, countWhile_append h, Nat.add_assoc, List.drop_length_add_append]

private theorem numberLength_fraction {first : Char} {digits : List Char}
    (hfirst : first.isDigit = true) (hdigits : digits.all Char.isDigit = true) (rest : List Char) :
    numberLength ('.' :: first :: digits ++ rest) =
      ('.' :: first :: digits).length + countWhile Char.isDigit rest +
        countWhile Char.isAlpha (rest.drop (countWhile Char.isDigit rest)) := by
  have hwhole : countWhile isDigitOrSeparator ('.' :: first :: digits ++ rest) = 0 := rfl
  have hfraction : fractionLength ('.' :: first :: digits ++ rest) =
      ('.' :: first :: digits).length + countWhile Char.isDigit rest := by
    rw [List.cons_append, List.cons_append, fractionLength, if_pos hfirst,
      countWhile_append hdigits]
    simp only [List.length_cons]
    omega
  simp only [numberLength, hwhole, hfraction, List.drop_zero, Nat.zero_add,
    List.drop_length_add_append]

private theorem numberLength_suffix {suffix : List Char} (h : suffix.all Char.isAlpha = true)
    (hne : suffix ≠ []) (rest : List Char) :
    numberLength (suffix ++ rest) = suffix.length + countWhile Char.isAlpha rest := by
  obtain ⟨first, more, rfl⟩ := List.exists_cons_of_ne_nil hne
  obtain ⟨hdigit, -, hpoint⟩ := letter_ends (List.all_eq_true.mp h first List.mem_cons_self)
  have hwhole : countWhile isDigitOrSeparator (first :: more ++ rest) = 0 := by
    simp [countWhile, hdigit]
  have hfraction : fractionLength (first :: more ++ rest) = 0 := fractionLength_eq_zero hpoint _
  simp only [numberLength, hwhole, hfraction, List.drop_zero, Nat.zero_add, countWhile_append h]

private theorem numberLength_eq_zero {rest : List Char} (h : Kind.numericLiteral.EndsAt rest) :
    numberLength rest = 0 := by
  cases rest with
  | nil => rfl
  | cons c rest =>
    obtain ⟨-, -, hwhole, -, hletter, hpoint⟩ := isSpace_ends (h c rfl).1
    simp [numberLength, countWhile, hwhole, hletter, fractionLength_eq_zero hpoint]

/-- A number is read up to its end at least. What can be read behind it are more digits, a fraction
or letters, and none of them is where it ends. -/
private theorem exists_numberLength {whole fraction suffix : List Char}
    (hwhole : whole.all isDigitOrSeparator = true) (hfraction : IsFraction fraction)
    (hsuffix : suffix.all Char.isAlpha = true) (rest : List Char) :
    ∃ more, numberLength (whole ++ fraction ++ suffix ++ rest) =
      (whole ++ fraction ++ suffix).length + more ∧
        (Kind.numericLiteral.EndsAt rest → more = 0) := by
  have hletters (h : Kind.numericLiteral.EndsAt rest) : countWhile Char.isAlpha rest = 0 :=
    h.countWhile_eq_zero fun c hc => (isSpace_ends hc).2.2.2.2.1
  have hdigits (h : Kind.numericLiteral.EndsAt rest) : countWhile Char.isDigit rest = 0 :=
    h.countWhile_eq_zero fun c hc => (isSpace_ends hc).2.2.2.1
  simp only [List.append_assoc, numberLength_whole hwhole, List.length_append, Nat.add_assoc,
    Nat.add_left_cancel_iff]
  cases hfraction with
  | none =>
    by_cases hne : suffix = []
    · exact ⟨numberLength rest, by simp [hne], numberLength_eq_zero⟩
    · exact ⟨_, by simpa using numberLength_suffix hsuffix hne rest, hletters⟩
  | @digits first digits hfirst hrest =>
    rw [numberLength_fraction hfirst hrest]
    by_cases hne : suffix = []
    · subst hne
      refine ⟨_, by rw [List.nil_append, List.length_nil, Nat.zero_add, Nat.add_assoc], fun h => ?_⟩
      simp [hdigits h, hletters h]
    · obtain ⟨letter, letters, rfl⟩ := List.exists_cons_of_ne_nil hne
      have hletter : letter.isAlpha = true := List.all_eq_true.mp hsuffix letter List.mem_cons_self
      have hnone : countWhile Char.isDigit (letter :: letters ++ rest) = 0 := by
        simp [countWhile, (letter_ends hletter).2.1]
      rw [hnone, Nat.add_zero, List.drop_zero, countWhile_append hsuffix]
      exact ⟨_, rfl, hletters⟩

private theorem isReadWhole_number {first : Char} {whole fraction suffix : List Char}
    (hfirst : first.isDigit = true) (hwhole : whole.all isDigitOrSeparator = true)
    (hfraction : IsFraction fraction) (hsuffix : suffix.all Char.isAlpha = true) :
    IsReadWhole ⟨.numericLiteral, String.ofList (first :: (whole ++ fraction ++ suffix))⟩ := by
  refine ⟨first, whole ++ fraction ++ suffix, String.toList_ofList, fun rest => ?_⟩
  obtain ⟨more, hlength, hmore⟩ := exists_numberLength hwhole hfraction hsuffix rest
  rw [lexeme_digit hfirst, hlength]
  refine ⟨by simp, Nat.le_add_right _ _, fun h => ?_⟩
  rw [hmore h, Nat.add_zero]

/-- A token whose last character closes it goes on with nothing. -/
private theorem isReadWhole_closed {kind : Kind} {first : Char} {part : List Char}
    (hread : ∀ rest, lexeme first (part ++ rest) = (kind, part.length)) (hkind : kind ≠ .error) :
    IsReadWhole ⟨kind, String.ofList (first :: part)⟩ := by
  refine ⟨first, part, String.toList_ofList, fun rest => ?_⟩
  rw [hread]
  exact ⟨hkind, Nat.le_refl _, fun _ => rfl⟩

private theorem isReadWhole_string {inside : List Char} (h : IsQuoted inside) :
    IsReadWhole ⟨.stringLiteral, String.ofList ('"' :: (inside ++ ['"']))⟩ := by
  refine isReadWhole_closed (fun rest => ?_) (by simp)
  change stringTail _ = _
  rw [List.append_assoc, List.singleton_append, stringTail_quoted h, List.length_append,
    List.length_singleton]

private theorem isReadWhole_char {c : Char} (hquote : c ≠ '\'') (hslash : c ≠ '\\')
    (hline : c ≠ '\n') : IsReadWhole ⟨.charLiteral, String.ofList ['\'', c, '\'']⟩ := by
  refine isReadWhole_closed (fun rest => ?_) (by simp)
  change charTail (c :: '\'' :: rest) = _
  rw [charTail] <;> simp_all

private theorem isReadWhole_escapedChar {c : Char} (hline : c ≠ '\n') :
    IsReadWhole ⟨.charLiteral, String.ofList ['\'', '\\', c, '\'']⟩ := by
  refine isReadWhole_closed (fun rest => ?_) (by simp)
  change charTail ('\\' :: c :: '\'' :: rest) = _
  simp [charTail]

private theorem operatorTail_ne_error {first : Char} (h : first ∈ operatorStarts)
    (rest : List Char) : (operatorTail first rest).1 ≠ .error := by
  unfold operatorTail
  split <;> simp_all [operatorStarts]

private theorem lexeme_operator {first : Char} (h : first ∈ operatorStarts) (rest : List Char) :
    lexeme first rest = operatorTail first rest := by
  unfold operatorStarts at h
  fin_cases h <;> rfl

/-- An equals sign behind two question marks belongs to them. -/
private theorem one_le_lexeme_questions (rest : List Char) :
    1 ≤ (lexeme '?' ('?' :: rest)).2 := by
  rw [lexeme_operator (by decide)]
  unfold operatorTail
  split <;> simp_all

private theorem isReadWhole_operator {kind : Kind} (h : kind ∈ operators) :
    IsReadWhole (punct kind) := by
  unfold operators at h
  fin_cases h
  all_goals
    refine ⟨_, _, rfl, fun rest => ⟨?_, ?_, fun h => ?_⟩⟩
    · rw [lexeme_operator (by decide)]
      exact operatorTail_ne_error (by decide) _
    · first | exact Nat.zero_le _ | exact Nat.le_refl _ | exact one_le_lexeme_questions rest
    · cases rest with
      | nil => rfl
      | cons c rest => rcases isSpace_iff.mp (h c rfl).1 with rfl | rfl | rfl | rfl <;> rfl

theorem IsLexeme.isReadWhole {token : Token} (h : token.IsLexeme) : token.IsReadWhole := by
  cases h with
  | whitespace hfirst hrest => exact isReadWhole_whitespace hfirst hrest
  | lineComment hrest => exact isReadWhole_lineComment hrest
  | word h => exact h.isReadWhole
  | number hfirst hwhole hfraction hsuffix =>
    exact isReadWhole_number hfirst hwhole hfraction hsuffix
  | string h => exact isReadWhole_string h
  | char hquote hslash hline => exact isReadWhole_char hquote hslash hline
  | escapedChar hline => exact isReadWhole_escapedChar hline
  | operator h => exact isReadWhole_operator h

/-- Blanks and numbers start with characters of their own. -/
theorem IsLexeme.first {token : Token} (h : token.IsLexeme) :
    ∃ first part, token.text.toList = first :: part ∧
      (token.kind = .whitespace → isSpace first = true) ∧
      (token.kind = .numericLiteral → first.isDigit = true) := by
  cases h with
  | whitespace hfirst => exact ⟨_, _, String.toList_ofList, fun _ => hfirst, by simp⟩
  | number hfirst => exact ⟨_, _, String.toList_ofList, by simp, fun _ => hfirst⟩
  | word h =>
    obtain ⟨first, part, htext, -⟩ := h.lexeme_append
    refine ⟨first, part, htext, ?_⟩
    rcases h.kind_eq with hkind | hkind <;> simp [hkind]
  | operator h =>
    obtain ⟨first, part, htext, -⟩ := isReadWhole_operator h
    refine ⟨first, part, htext, ?_, ?_⟩
    all_goals
      rintro rfl
      exact absurd h (by decide)
  | _ => exact ⟨_, _, String.toList_ofList, by simp, by simp⟩

theorem isSpace_of_lexeme {first : Char} {rest : List Char}
    (h : (lexeme first rest).1 = .whitespace) : isSpace first = true := by
  have herror : (lexeme first rest).1 ≠ .error := by simp [h]
  obtain ⟨c, part, htext, hspace, -⟩ := (isLexeme_lexeme herror).first
  obtain ⟨rfl, -⟩ := List.cons.inj (String.toList_ofList.symm.trans htext)
  exact hspace h

theorem isDigit_of_lexeme {first : Char} {rest : List Char}
    (h : (lexeme first rest).1 = .numericLiteral) : first.isDigit = true := by
  have herror : (lexeme first rest).1 ≠ .error := by simp [h]
  obtain ⟨c, part, htext, -, hdigit⟩ := (isLexeme_lexeme herror).first
  obtain ⟨rfl, -⟩ := List.cons.inj (String.toList_ofList.symm.trans htext)
  exact hdigit h

end Ends

section Texts

/-- The characters of a text are those of its tokens. -/
theorem flatMap_ofChars (chars : List Char) :
    (ofChars chars).flatMap (·.text.toList) = chars := by
  fun_induction ofChars chars with
  | case1 => rfl
  | case2 first rest kind length hlexeme ih =>
    rw [List.flatMap_cons, ih, String.toList_ofList, List.cons_append, List.take_append_drop]

theorem text_ne_empty {chars : List Char} {token : Token} (h : token ∈ ofChars chars) :
    token.text ≠ "" := by
  fun_induction ofChars chars with
  | case1 => simp at h
  | case2 first rest kind length hlexeme ih =>
    rcases List.mem_cons.mp h with rfl | hm
    · simp [← String.toList_inj]
    · exact ih hm

theorem isLexeme_of_mem {chars : List Char} {token : Token} (h : token ∈ ofChars chars)
    (hkind : token.kind ≠ .error) : token.IsLexeme := by
  fun_induction ofChars chars with
  | case1 => simp at h
  | case2 first rest kind length hlexeme ih =>
    rcases List.mem_cons.mp h with rfl | hm
    · have hread : (lexeme first rest).1 ≠ .error := by rwa [hlexeme]
      simpa only [hlexeme] using isLexeme_lexeme hread
    · exact ih hm

theorem IsLexeme.ofChars_append {token : Token} (h : token.IsLexeme) {rest : List Char}
    (hrest : token.kind.EndsAt rest) :
    ofChars (token.text.toList ++ rest) = token :: ofChars rest := by
  obtain ⟨first, part, htext, hread⟩ := h.isReadWhole
  exact Token.ofChars_append htext ((hread rest).2.2 hrest)

theorem IsLexeme.tokenize_text {token : Token} (h : token.IsLexeme) :
    tokenize token.text = [token] := by
  have hread : ofChars (token.text.toList ++ []) = token :: ofChars [] :=
    h.ofChars_append (by simp [Kind.EndsAt])
  rwa [List.append_nil, ofChars] at hread

/-- An identifier starts with a letter or underscore, or with one behind an at sign. -/
theorem isIdentifier_iff {text : String} : IsIdentifier text ↔ (ident text).IsWord := by
  constructor
  · intro h
    have hm : ident text ∈ ofChars text.toList := by
      rw [IsIdentifier, tokenize] at h
      simp [h]
    have hlexeme : IsLexeme ⟨.identifier, text⟩ := isLexeme_of_mem hm (by simp)
    cases hlexeme with
    | word h => exact h
    | operator hkind => exact absurd hkind (by decide)
  · exact fun h => (IsLexeme.word h).tokenize_text

/-- A text that starts like a word, and is no keyword, is read as an identifier if it is a word. -/
theorem significant_eq_ident_iff {text : String} {first : Char} {rest : List Char}
    (htext : text.toList = first :: rest) (hfirst : isWordStart first = true)
    (hkeyword : isKeyword text = false) :
    significant text = [ident text] ↔ rest.all isWordPart = true := by
  constructor
  · intro h
    rw [significant, tokenize, htext, ofChars_cons, lexeme_word hfirst,
      List.filter_cons_of_pos] at h
    · have hhead := congrArg Token.text (List.cons.inj h).1
      have hread : rest.take (countWhile isWordPart rest) = rest := by
        simpa [ident, String.ext_iff, htext] using hhead
      rw [← hread]
      exact take_countWhile _ _
    · simp only [wordKind]
      split <;> decide
  · intro h
    have hword : (ident text).IsWord :=
      .plain htext (by simp [ident, wordKind, hkeyword]) hfirst h
    rw [significant, isIdentifier_iff.mpr hword]
    rfl

theorem IsLexeme.significant_append {token : Token} (h : token.IsLexeme)
    (hkind : token.kind ≠ .whitespace) {text : String} (hend : token.kind.EndsAt text.toList) :
    significant (token.text ++ text) = token :: significant text := by
  rw [significant, tokenize, String.toList_append, h.ofChars_append hend,
    List.filter_cons_of_pos (by simpa using hkind), significant, tokenize]

/-- Tokens with spaces between them are read again. A comment would take what is behind it along. -/
theorem significant_intercalate {tokens : List Token} (h : ∀ token ∈ tokens, token.IsLexeme)
    (hkinds : ∀ token ∈ tokens, token.kind ≠ .whitespace ∧ token.kind ≠ .lineComment) :
    significant (" ".intercalate (tokens.map (·.text))) = tokens := by
  induction tokens with
  | nil => simp [significant, tokenize, ofChars]
  | cons token rest ih =>
    obtain ⟨htoken, hrest⟩ := List.forall_mem_cons.mp h
    obtain ⟨⟨hwhitespace, hcomment⟩, hothers⟩ := List.forall_mem_cons.mp hkinds
    cases rest with
    | nil => simp [significant, htoken.tokenize_text, hwhitespace]
    | cons next rest =>
      have hspace : isSpace ' ' = true := by decide
      have hend : token.kind.EndsAt (" " ++ " ".intercalate ((next :: rest).map (·.text))).toList := by
        simp [Kind.EndsAt, hspace, hwhitespace, hcomment]
      rw [List.map_cons, List.map_cons, String.intercalate_cons_cons, ← List.map_cons,
        String.append_assoc, htoken.significant_append hwhitespace hend, significant_space,
        ih hrest hothers]

private theorem exists_ofChars {chars : List Char} {before after : List Token}
    (h : ofChars chars = before ++ after) : ∃ rest, ofChars rest = after := by
  induction before generalizing chars with
  | nil => exact ⟨chars, h⟩
  | cons token before ih =>
    cases chars with
    | nil => simp [ofChars] at h
    | cons first rest =>
      rw [ofChars_cons] at h
      exact ih (List.cons.inj h).2

/-- Each token is the longest stretch with the form of a token where it stands, and an error stands
only where there is none. -/
theorem tokenize_longest {source : String} {before after : List Token} {token : Token}
    (h : tokenize source = before ++ token :: after) {other : Token} (hother : other.IsLexeme)
    (hfront : other.text.toList <+: (token :: after).flatMap (·.text.toList)) :
    token.kind ≠ .error ∧ other.text.length ≤ token.text.length := by
  obtain ⟨chars, hchars⟩ := exists_ofChars h
  rw [← hchars, flatMap_ofChars] at hfront
  obtain ⟨first, part, htext, hread⟩ := hother.isReadWhole
  rw [htext] at hfront
  obtain ⟨rest, rfl⟩ := hfront
  obtain ⟨hkind, hlength, -⟩ := hread rest
  rw [List.cons_append, ofChars_cons] at hchars
  obtain ⟨rfl, -⟩ := List.cons.inj hchars
  refine ⟨hkind, ?_⟩
  rw [← String.length_toList, htext, String.length_ofList]
  simp only [List.length_cons, List.length_take, List.length_append]
  omega

/-- No character of a text is lost, and no token depends on what stands around it: the texts of the
tokens make up the source, each token that is no error is read from its own text, and the tokens
are read again with single spaces between them if there are no errors and comments. -/
theorem tokenize_lossless (source : String) :
    (∀ token ∈ tokenize source, token.text ≠ "") ∧
      String.join ((tokenize source).map (·.text)) = source ∧
      (∀ token ∈ tokenize source, token.kind ≠ .error → tokenize token.text = [token]) ∧
      ((∀ token ∈ tokenize source, token.kind ≠ .error ∧ token.kind ≠ .lineComment) →
        significant (" ".intercalate ((significant source).map (·.text))) =
          significant source) := by
  refine ⟨?_, ?_, ?_, ?_⟩
  · exact fun token => text_ne_empty
  · rw [← String.toList_inj]
    simpa [tokenize, List.flatMap_map] using flatMap_ofChars source.toList
  · intro token hm hkind
    exact (isLexeme_of_mem hm hkind).tokenize_text
  · intro hsource
    apply significant_intercalate
    · intro token hm
      have hread := List.mem_of_mem_filter hm
      exact isLexeme_of_mem hread (hsource token hread).1
    · intro token hm
      obtain ⟨hread, hkind⟩ := List.mem_filter.mp hm
      exact ⟨by simpa using hkind, (hsource token hread).2⟩

/-- A signature with a verbatim name, a fraction and a quote in a character. -/
theorem tokenize_lossless_signature :
    let source := "void F(int @class=1_0.5f,char c='\\'');"
    (∀ token ∈ tokenize source, token.kind ≠ .error ∧ token.kind ≠ .lineComment) ∧
      (∀ token ∈ tokenize source, tokenize token.text = [token]) ∧
      significant "void F ( int @class = 1_0.5f , char c = '\\'' ) ;" = significant source := by
  intro source
  have hsource : ∀ token ∈ tokenize source, token.kind ≠ .error ∧ token.kind ≠ .lineComment := by
    decide +kernel
  have hspaced : " ".intercalate ((significant source).map (·.text)) =
      "void F ( int @class = 1_0.5f , char c = '\\'' ) ;" := by decide +kernel
  obtain ⟨-, -, halone, hagain⟩ := tokenize_lossless source
  refine ⟨hsource, fun token hm => halone token hm (hsource token hm).1, ?_⟩
  rw [← hspaced]
  exact hagain hsource

end Texts

end Token

end SourceGen
