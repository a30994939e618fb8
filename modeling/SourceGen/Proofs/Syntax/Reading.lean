import SourceGen.Proofs.Syntax.Signature

/-! How tokens that are written in a row are read again: as they are exactly if each of them is read
up to its end, and no further, in front of what is written behind it. -/

namespace SourceGen

/-- What tokens of a kind are read as: keywords are words, and comparisons are spelled as brackets
are. -/
def Kind.sort : Kind → Kind
  | .keyword => .identifier
  | .less => .leftAngle
  | .greater => .rightAngle
  | kind => kind

/-- Whether a token of a kind goes on if a character follows it. Numbers go on with fractions too. -/
def Kind.continues (kind : Kind) (c : Char) : Bool :=
  match kind with
  | .identifier | .keyword => Token.isWordPart c
  | .numericLiteral => Token.isDigitOrSeparator c || c.isAlpha
  | .leftAngle | .less | .rightAngle | .greater | .questionQuestion | .bang => c == '='
  | .equal => c == '=' || c == '>'
  | .question => c == '?'
  | .colon => c == ':'
  | .plus => c == '+'
  | .minus => c == '-'
  | .amp => c == '&'
  | .pipe => c == '|'
  | _ => false

/-- Whether an operator goes on with the first character of another one. -/
def Kind.isContinuedBy (kind next : Kind) : Bool :=
  next.spelling.toList.head?.any kind.continues

theorem Kind.spelling_sort (kind : Kind) : kind.sort.spelling = kind.spelling := by
  cases kind <;> rfl

theorem Kind.continues_sort (kind : Kind) : kind.sort.continues = kind.continues := by
  cases kind <;> rfl

theorem Kind.isTrivia_sort (kind : Kind) : kind.sort.isTrivia = kind.isTrivia := by
  cases kind <;> rfl

theorem Kind.sort_eq_numericLiteral {kind : Kind} :
    kind.sort = .numericLiteral ↔ kind = .numericLiteral := by
  cases kind <;> simp [sort]

namespace Token

@[simp] theorem punct_kind (kind : Kind) : (punct kind).kind = kind := rfl

@[simp] theorem ident_kind (text : String) : (ident text).kind = .identifier := rfl

/-- Whether the text of a token is read as one token of its sort. -/
def IsReadAlone (token : Token) : Prop :=
  ∃ kind, tokenize token.text = [⟨kind, token.text⟩] ∧ kind.sort = token.kind.sort ∧
    kind ≠ .error ∧ kind.isTrivia = false

/-- Whether the text of a token is read up to its end, and no further, in front of other
characters. -/
def EndsBefore (token : Token) (rest : List Char) : Prop :=
  ∃ kind, ofChars (token.text.toList ++ rest) = ⟨kind, token.text⟩ :: ofChars rest

/-- The characters of tokens in a row, with a space in front of those that stand apart. -/
def written : List (Bool × Token) → List Char
  | [] => []
  | (apart, token) :: row => (if apart then [' '] else []) ++ token.text.toList ++ written row

/-- Whether each token of a row is read up to its end in front of what is written behind it. -/
def Reads : List (Bool × Token) → List Char → Prop
  | [], _ => True
  | (_, token) :: row, rest => token.EndsBefore (written row ++ rest) ∧ Reads row rest

/-- The characters that continue no token. -/
def inert : List Char :=
  [' ', '(', ')', ',']

/-- The kinds of the tokens that operands start with. -/
def operandStarts : List Kind :=
  [.identifier, .keyword, .numericLiteral, .stringLiteral, .charLiteral, .leftParen, .plus, .minus,
    .bang, .star, .amp, .plusPlus, .minusMinus]

/-- The kinds of the tokens that operands end with. -/
def operandEnds : List Kind :=
  [.identifier, .keyword, .numericLiteral, .stringLiteral, .charLiteral, .rightParen, .bang,
    .plusPlus, .minusMinus]

/-- What can be written behind an operand without a space. -/
def IsCalm (rest : List Char) : Prop :=
  (∀ c ∈ rest.head?, c ∈ inert ++ ['.', '!', '+', '-']) ∧ fractionLength rest = 0

section Lengths

private theorem countWhile_le (p : Char → Bool) (chars : List Char) :
    countWhile p chars ≤ chars.length :=
  (List.takeWhile_prefix p).length_le

private theorem fractionLength_le (chars : List Char) : fractionLength chars ≤ chars.length := by
  unfold fractionLength
  split
  · next c rest =>
    split
    · have hdigits := countWhile_le Char.isDigit rest
      simp only [List.length_cons]
      omega
    · exact Nat.zero_le _
  · exact Nat.zero_le _

private theorem numberLength_le (chars : List Char) : numberLength chars ≤ chars.length := by
  have hwhole := countWhile_le isDigitOrSeparator chars
  have hfraction := fractionLength_le (chars.drop (countWhile isDigitOrSeparator chars))
  have hletters := countWhile_le Char.isAlpha (chars.drop (countWhile isDigitOrSeparator chars +
    fractionLength (chars.drop (countWhile isDigitOrSeparator chars))))
  simp only [List.length_drop] at hfraction hletters
  simp only [numberLength]
  omega

private theorem stringTail_le (chars : List Char) : (stringTail chars).2 ≤ chars.length := by
  fun_induction stringTail chars <;> simp_all

private theorem charTail_le (chars : List Char) : (charTail chars).2 ≤ chars.length := by
  unfold charTail
  split <;> simp

private theorem verbatimTail_le (chars : List Char) : (verbatimTail chars).2 ≤ chars.length := by
  unfold verbatimTail
  split
  · exact Nat.zero_le _
  · next c rest =>
    have hword := countWhile_le isWordPart rest
    split
    · simp only [List.length_cons]
      omega
    · dsimp only
      split <;> simp

private theorem operatorTail_le (first : Char) (rest : List Char) :
    (operatorTail first rest).2 ≤ rest.length := by
  unfold operatorTail
  split <;> simp

/-- No token takes more characters than there are. -/
private theorem lexeme_le (first : Char) (rest : List Char) :
    (lexeme first rest).2 ≤ rest.length := by
  unfold lexeme
  split
  · exact countWhile_le _ _
  split
  · exact countWhile_le _ _
  split
  · exact numberLength_le _
  split
  · exact verbatimTail_le _
  · exact stringTail_le _
  · exact charTail_le _
  · split
    · exact countWhile_le _ _
    · exact Nat.zero_le _
  · exact operatorTail_le _ _

end Lengths

section Rows

theorem endsBefore_iff {token : Token} {first : Char} {more : List Char}
    (htext : token.text.toList = first :: more) (rest : List Char) :
    token.EndsBefore rest ↔ (lexeme first (more ++ rest)).2 = more.length := by
  rw [EndsBefore, htext, List.cons_append, ofChars_cons]
  constructor
  · rintro ⟨kind, h⟩
    have htoken := congrArg (String.toList ∘ Token.text) (List.cons.inj h).1
    have htake : (more ++ rest).take (lexeme first (more ++ rest)).2 = more := by
      simpa [htext] using htoken
    have hlength := congrArg List.length htake
    rw [List.length_take] at hlength
    have hle := lexeme_le first (more ++ rest)
    omega
  · intro h
    refine ⟨(lexeme first (more ++ rest)).1, ?_⟩
    rw [h, List.take_left, List.drop_left, ← htext, String.ofList_toList]

theorem written_append (row other : List (Bool × Token)) :
    written (row ++ other) = written row ++ written other := by
  induction row with
  | nil => rfl
  | cons entry row ih => simp [written, ih]

theorem reads_append (row other : List (Bool × Token)) (rest : List Char) :
    Reads (row ++ other) rest ↔ Reads row (written other ++ rest) ∧ Reads other rest := by
  induction row with
  | nil => simp [Reads]
  | cons entry row ih =>
    rw [List.cons_append, Reads, ih, Reads, written_append, List.append_assoc, and_assoc]

/-- The texts that are read from characters. -/
private def texts (chars : List Char) : List String :=
  ((ofChars chars).filter (·.kind ≠ .whitespace)).map (·.text)

private theorem texts_space {first : Char} (h : isSpace first = false) (rest : List Char) :
    texts (' ' :: first :: rest) = texts (first :: rest) := by
  have hlexeme : lexeme ' ' (first :: rest) = (.whitespace, 0) := by
    have hspace : isSpace ' ' = true := by decide
    simp [lexeme, hspace, countWhile, h]
  rw [texts, ofChars_cons, hlexeme]
  simp [texts]

/-- The tokens of a row are read again exactly if each of them is read up to its end. -/
theorem significant_written_iff {row : List (Bool × Token)}
    (h : ∀ entry ∈ row, ∃ first more, entry.2.text.toList = first :: more ∧ isSpace first = false) :
    (significant (String.ofList (written row))).map (·.text) = row.map (·.2.text) ↔
      Reads row [] := by
  have htexts (chars : List Char) :
      (significant (String.ofList chars)).map (·.text) = texts chars := by
    rw [significant, tokenize, String.toList_ofList, texts]
  rw [htexts]
  induction row with
  | nil => simp [written, texts, ofChars, Reads]
  | cons entry row ih =>
    obtain ⟨apart, token⟩ := entry
    obtain ⟨⟨first, more, htext, hspace⟩, hrow⟩ := List.forall_mem_cons.mp h
    have hskip : texts (written ((apart, token) :: row)) = texts (first :: (more ++ written row)) := by
      rw [written, htext]
      cases apart
      · rfl
      · exact texts_space hspace _
    have hread : texts (first :: (more ++ written row)) =
        String.ofList (first :: (more ++ written row).take (lexeme first (more ++ written row)).2) ::
          texts ((more ++ written row).drop (lexeme first (more ++ written row)).2) := by
      have hkind : (lexeme first (more ++ written row)).1 ≠ .whitespace := by
        intro hkind
        simp [isSpace_of_lexeme hkind] at hspace
      rw [texts, ofChars_cons, List.filter_cons_of_pos (by simpa using hkind)]
      rfl
    have hrest : texts (written row) = row.map (·.2.text) ↔ Reads row [] := ih hrow
    rw [hskip, hread, Reads, List.append_nil, endsBefore_iff htext, List.map_cons, ← hrest]
    generalize hlength : (lexeme first (more ++ written row)).2 = length
    constructor
    · intro heq
      obtain ⟨hfirst, hrest⟩ := List.cons.inj heq
      have htake : (more ++ written row).take length = more := by
        have hchars := congrArg String.toList hfirst
        simpa [htext] using hchars
      have hle := lexeme_le first (more ++ written row)
      have hmore := congrArg List.length htake
      rw [List.length_take] at hmore
      obtain rfl : length = more.length := by omega
      exact ⟨rfl, by rwa [List.drop_left] at hrest⟩
    · rintro ⟨rfl, hrest⟩
      rw [List.take_left, List.drop_left, hrest, ← htext, String.ofList_toList]

end Rows

section Ends

private theorem countWhile_stopped {p : Char → Bool} {rest : List Char}
    (h : ∀ c ∈ rest.head?, p c = false) (chars : List Char) :
    countWhile p (chars ++ rest) = countWhile p chars := by
  induction chars with
  | nil =>
    cases rest with
    | nil => rfl
    | cons c rest => simp [countWhile, h c rfl]
  | cons c chars ih =>
    unfold countWhile at ih ⊢
    cases hc : p c <;> simp [hc, ih]

private theorem fractionLength_append {rest chars : List Char}
    (hdigit : ∀ c ∈ rest.head?, c.isDigit = false)
    (hfraction : fractionLength rest = 0 ∨ chars ≠ []) :
    fractionLength (chars ++ rest) = fractionLength chars := by
  match chars with
  | [] => simpa [fractionLength] using hfraction
  | [c] =>
    by_cases hc : c = '.'
    · subst hc
      cases rest with
      | nil => rfl
      | cons d rest => simp [fractionLength, hdigit d rfl]
    · simp [fractionLength, hc]
  | c :: d :: chars =>
    by_cases hc : c = '.'
    · subst hc
      simp [fractionLength, countWhile_stopped hdigit]
    · simp [fractionLength, hc]

/-- A number goes no further if neither a digit nor a letter follows, nor a fraction behind digits. -/
private theorem numberLength_append {rest chars : List Char}
    (h : ∀ c ∈ rest.head?, isDigitOrSeparator c = false ∧ c.isAlpha = false)
    (hfraction : fractionLength rest = 0 ∨ chars.all isDigitOrSeparator = false) :
    numberLength (chars ++ rest) = numberLength chars := by
  have hdigit : ∀ c ∈ rest.head?, c.isDigit = false := by
    intro c hc
    have hseparator := (h c hc).1
    rw [isDigitOrSeparator, Bool.or_eq_false_iff] at hseparator
    exact hseparator.1
  have hbehind : fractionLength rest = 0 ∨ chars.drop (countWhile isDigitOrSeparator chars) ≠ [] :=
    hfraction.imp_right fun hall hdrop => by simp [drop_countWhile hdrop] at hall
  have hwhole := countWhile_le isDigitOrSeparator chars
  have hdropped := fractionLength_le (chars.drop (countWhile isDigitOrSeparator chars))
  rw [List.length_drop] at hdropped
  simp only [numberLength, countWhile_stopped fun c hc => (h c hc).1]
  rw [List.drop_append_of_le_length hwhole, fractionLength_append hdigit hbehind,
    List.drop_append_of_le_length (by omega), countWhile_stopped fun c hc => (h c hc).2]

private theorem stringTail_append {chars : List Char} (rest : List Char)
    (h : (stringTail chars).1 = .stringLiteral) : stringTail (chars ++ rest) = stringTail chars := by
  obtain ⟨inside, behind, hinside, rfl⟩ := exists_isQuoted h
  rw [List.append_assoc, List.cons_append, stringTail_quoted hinside, stringTail_quoted hinside]

private theorem charTail_append {chars : List Char} (rest : List Char)
    (h : (charTail chars).1 = .charLiteral) : charTail (chars ++ rest) = charTail chars := by
  unfold charTail at h
  split at h <;> simp_all [charTail]

private theorem endsBefore_iff_head {token : Token} {first : Char} {more : List Char}
    {continues : Char → Bool} (htext : token.text.toList = first :: more)
    (hend : (lexeme first more).2 = more.length)
    (hnext : ∀ c rest, (lexeme first (more ++ c :: rest)).2 = more.length ↔ continues c = false)
    (rest : List Char) : token.EndsBefore rest ↔ ∀ c ∈ rest.head?, continues c = false := by
  rw [endsBefore_iff htext]
  cases rest with
  | nil => simp [hend]
  | cons c rest => simp [hnext]

/-- The operators of one character that longer ones start with. -/
private def beginnings : List (Kind × Char) :=
  [(.leftAngle, '<'), (.less, '<'), (.rightAngle, '>'), (.greater, '>'), (.colon, ':'),
    (.question, '?'), (.equal, '='), (.plus, '+'), (.minus, '-'), (.amp, '&'), (.pipe, '|'),
    (.bang, '!')]

private theorem lexeme_beginning {kind : Kind} {first : Char} (h : (kind, first) ∈ beginnings)
    (rest : List Char) :
    lexeme first rest = operatorTail first rest ∧
      ∀ c, (operatorTail first (c :: rest)).2 = 0 ↔ kind.continues c = false := by
  simp only [beginnings, List.mem_cons, List.not_mem_nil, or_false, Prod.mk.injEq] at h
  rcases h with ⟨rfl, rfl⟩ | ⟨rfl, rfl⟩ | ⟨rfl, rfl⟩ | ⟨rfl, rfl⟩ | ⟨rfl, rfl⟩ | ⟨rfl, rfl⟩ |
    ⟨rfl, rfl⟩ | ⟨rfl, rfl⟩ | ⟨rfl, rfl⟩ | ⟨rfl, rfl⟩ | ⟨rfl, rfl⟩ | ⟨rfl, rfl⟩ <;>
    (refine ⟨rfl, fun c => ?_⟩; unfold operatorTail Kind.continues; split <;> simp_all)

private theorem endsBefore_beginning {kind : Kind} {first : Char} (h : (kind, first) ∈ beginnings)
    (rest : List Char) :
    (punct kind).EndsBefore rest ↔ ∀ c ∈ rest.head?, kind.continues c = false := by
  have hspelled : ∀ entry ∈ beginnings, entry.1.spelling.toList = [entry.2] ∧
      (operatorTail entry.2 []).2 = 0 := by decide
  obtain ⟨htext, hend⟩ := hspelled _ h
  refine endsBefore_iff_head htext ?_ (fun c rest => ?_) rest
  · rwa [(lexeme_beginning h []).1]
  · rw [List.nil_append, (lexeme_beginning h _).1]
    exact (lexeme_beginning h rest).2 c

/-- An operator is read up to its end unless it is the start of a longer one. -/
theorem endsBefore_punct_iff {kind : Kind} (h : kind.spelling ≠ "") (rest : List Char) :
    (punct kind).EndsBefore rest ↔ ∀ c ∈ rest.head?, kind.continues c = false := by
  by_cases hfirst : ∃ entry ∈ beginnings, entry.1 = kind
  · obtain ⟨entry, hm, rfl⟩ := hfirst
    exact endsBefore_beginning hm rest
  cases kind
  case questionQuestion =>
    refine endsBefore_iff_head rfl rfl (fun c rest => ?_) rest
    change (operatorTail '?' ('?' :: c :: rest)).2 = 1 ↔ _
    by_cases hc : c = '=' <;> simp [operatorTail, Kind.continues, hc]
  all_goals first
    | exact absurd rfl h
    | exact absurd (by decide) hfirst
    | exact endsBefore_iff_head rfl rfl (fun _ _ => ⟨fun _ => rfl, fun _ => rfl⟩) rest

private theorem verbatimTail_append {chars rest tail : List Char}
    (h : (verbatimTail chars).1 ≠ .error) (htail : ∀ c ∈ tail.head?, isWordPart c = false) :
    (verbatimTail (chars ++ rest ++ tail)).2 = (verbatimTail (chars ++ rest)).2 := by
  cases chars with
  | nil => exact absurd rfl h
  | cons first chars =>
    by_cases hfirst : isWordStart first = true
    · simp only [List.cons_append, verbatimTail, if_pos hfirst, countWhile_stopped htail]
    · exact absurd (by simp [verbatimTail, hfirst]) h

/-- What starts with no letter, digit, quote or at sign is an operator, a comment or no token. -/
private theorem lexeme_other {first : Char} (hspace : isSpace first = false)
    (hword : isWordStart first = false) (hdigit : first.isDigit = false)
    (hquote : first ∉ ['@', '"', '\'']) (rest : List Char) :
    (lexeme first rest).1 = .error ∨ (lexeme first rest).1 = .lineComment ∨
      (lexeme first rest).1.spelling ≠ "" := by
  rw [lexeme.eq_def, hspace, hword, hdigit, if_neg Bool.false_ne_true, if_neg Bool.false_ne_true,
    if_neg Bool.false_ne_true]
  split
  · simp at hquote
  · simp at hquote
  · simp at hquote
  · split
    · exact .inr (.inl rfl)
    · exact .inl rfl
  · by_cases herror : (operatorTail first rest).1 = .error
    · exact .inl herror
    · refine .inr (.inr fun hempty => ?_)
      have hchars := congrArg String.toList ((operatorTail_spelled herror).2.trans hempty)
      simp at hchars

/-- What is no operator is read as far as before if something is added that does not continue it. -/
private theorem lexeme_append {first : Char} {more rest tail : List Char} {kind : Kind}
    (h : lexeme first more = (kind, more.length)) (hspelling : kind.spelling = "")
    (hkind : kind ≠ .error) (htrivia : kind.isTrivia = false)
    (htail : ∀ c ∈ tail.head?, kind.continues c = false)
    (hfraction : kind = .numericLiteral → fractionLength tail = 0) :
    (lexeme first (more ++ rest ++ tail)).2 = (lexeme first (more ++ rest)).2 := by
  obtain rfl : (lexeme first more).1 = kind := congrArg Prod.fst h
  by_cases hspace : isSpace first = true
  · rw [lexeme.eq_def, if_pos hspace] at htrivia
    cases htrivia
  by_cases hword : isWordStart first = true
  · have hcontinues : (lexeme first more).1.continues = isWordPart := by
      rw [lexeme_word hword, wordKind]
      split <;> rfl
    rw [lexeme_word hword, lexeme_word hword]
    exact countWhile_stopped (fun c hc => hcontinues ▸ htail c hc) _
  by_cases hdigit : first.isDigit = true
  · have hnumber (chars : List Char) : lexeme first chars = (.numericLiteral, numberLength chars) := by
      rw [lexeme.eq_def, if_neg hspace, if_neg hword, if_pos hdigit]
    rw [hnumber] at htail hfraction
    rw [hnumber, hnumber]
    refine numberLength_append (fun c hc => ?_) (.inl (hfraction rfl))
    simpa [Kind.continues] using htail c hc
  by_cases hquote : first ∈ ['@', '"', '\'']
  · simp only [List.mem_cons, List.not_mem_nil, or_false] at hquote
    rcases hquote with rfl | rfl | rfl
    · change (verbatimTail _).1 ≠ .error at hkind
      have hword : (verbatimTail more).1 = .identifier := (verbatimTail_kind more).resolve_right hkind
      change ∀ c ∈ tail.head?, (verbatimTail more).1.continues c = false at htail
      rw [hword] at htail
      exact verbatimTail_append hkind htail
    · have hend : (stringTail more).1 = .stringLiteral := (stringTail_kind more).resolve_right hkind
      change (stringTail _).2 = (stringTail _).2
      rw [List.append_assoc, stringTail_append _ hend, stringTail_append _ hend]
    · have hend : (charTail more).1 = .charLiteral := (charTail_kind more).resolve_right hkind
      change (charTail _).2 = (charTail _).2
      rw [List.append_assoc, charTail_append _ hend, charTail_append _ hend]
  · simp only [Bool.not_eq_true] at hspace hword hdigit
    rcases lexeme_other hspace hword hdigit hquote more with hother | hother | hother
    · exact absurd hother hkind
    · rw [hother] at htrivia
      cases htrivia
    · exact absurd hspelling hother

theorem isReadAlone_of_tokenize {token : Token} (h : tokenize token.text = [token])
    (herror : token.kind ≠ .error) (htrivia : token.kind.isTrivia = false) : token.IsReadAlone :=
  ⟨token.kind, h, rfl, herror, htrivia⟩

theorem IsReadAlone.lexeme_eq {token : Token} (h : token.IsReadAlone) :
    ∃ first more kind, token.text.toList = first :: more ∧
      lexeme first more = (kind, more.length) ∧ kind.sort = token.kind.sort ∧ kind ≠ .error ∧
      kind.isTrivia = false ∧ (kind.spelling = "" ∨ token.text = kind.spelling) := by
  obtain ⟨kind, hread, hsort, herror, htrivia⟩ := h
  have hspelled : IsSpelled ⟨kind, token.text⟩ := by
    refine significant_spelled token.text _ ?_
    have hkind : kind ≠ .whitespace := by
      rintro rfl
      cases htrivia
    rw [significant, hread]
    simp [hkind]
  cases htext : token.text.toList with
  | nil => simp [tokenize, htext, ofChars] at hread
  | cons first more =>
    rw [tokenize, htext, ofChars_cons] at hread
    obtain ⟨htoken, hrest⟩ := List.cons.inj hread
    have hkind : (lexeme first more).1 = kind := congrArg Token.kind htoken
    have hends : token.EndsBefore [] :=
      ⟨kind, by rw [htext, List.append_nil, ofChars_cons, htoken, hrest, ofChars]⟩
    have hlength := (endsBefore_iff htext []).mp hends
    rw [List.append_nil] at hlength
    exact ⟨first, more, kind, rfl, Prod.ext hkind hlength, hsort, herror, htrivia, hspelled⟩

theorem IsReadAlone.not_isSpace {token : Token} (h : token.IsReadAlone) :
    ∃ first more, token.text.toList = first :: more ∧ isSpace first = false := by
  obtain ⟨first, more, kind, htext, hlexeme, -, -, htrivia, -⟩ := h.lexeme_eq
  refine ⟨first, more, htext, ?_⟩
  by_contra hspace
  rw [lexeme.eq_def, if_pos (by simpa using hspace)] at hlexeme
  obtain rfl : Kind.whitespace = kind := congrArg Prod.fst hlexeme
  cases htrivia

theorem IsReadAlone.not_isTrivia {token : Token} (h : token.IsReadAlone) :
    token.kind.isTrivia = false := by
  obtain ⟨kind, -, hsort, -, htrivia⟩ := h
  rw [← Kind.isTrivia_sort, ← hsort, Kind.isTrivia_sort, htrivia]

/-- The text of an operator is its spelling. -/
theorem IsReadAlone.text_eq {token : Token} (h : token.IsReadAlone)
    (hspelling : token.kind.spelling ≠ "") : token.text = token.kind.spelling := by
  obtain ⟨first, more, kind, -, -, hsort, -, -, hspelled⟩ := h.lexeme_eq
  have hsame : kind.spelling = token.kind.spelling := by
    rw [← Kind.spelling_sort, hsort, Kind.spelling_sort]
  rw [← hsame] at hspelling ⊢
  exact hspelled.resolve_left hspelling

/-- A token is read as before if something is added behind it that does not continue it. -/
theorem IsReadAlone.endsBefore_append {token : Token} (h : token.IsReadAlone)
    {rest tail : List Char} (htail : ∀ c ∈ tail.head?, token.kind.continues c = false)
    (hfraction : token.kind = .numericLiteral → fractionLength tail = 0) :
    token.EndsBefore (rest ++ tail) ↔ token.EndsBefore rest := by
  by_cases hspelling : token.kind.spelling = ""
  · obtain ⟨first, more, kind, htext, hlexeme, hsort, herror, htrivia, -⟩ := h.lexeme_eq
    have hcontinues : kind.continues = token.kind.continues := by
      rw [← Kind.continues_sort, hsort, Kind.continues_sort]
    have hempty : kind.spelling = "" := by
      rw [← Kind.spelling_sort, hsort, Kind.spelling_sort, hspelling]
    have hnumber (hkind : kind = .numericLiteral) : fractionLength tail = 0 := by
      rw [hkind] at hsort
      exact hfraction (Kind.sort_eq_numericLiteral.mp hsort.symm)
    rw [endsBefore_iff htext, endsBefore_iff htext, ← List.append_assoc]
    rw [lexeme_append hlexeme hempty herror htrivia (by rwa [hcontinues]) hnumber]
  · have hpunct (rest : List Char) : token.EndsBefore rest ↔ (punct token.kind).EndsBefore rest := by
      rw [EndsBefore, EndsBefore, h.text_eq hspelling, punct]
    rw [hpunct, hpunct, endsBefore_punct_iff hspelling, endsBefore_punct_iff hspelling]
    cases rest with
    | nil => exact ⟨fun _ => by simp, fun _ => htail⟩
    | cons c rest => rfl

/-- A token is read up to its end in front of what does not continue it. -/
theorem IsReadAlone.endsBefore {token : Token} (h : token.IsReadAlone) {tail : List Char}
    (htail : ∀ c ∈ tail.head?, token.kind.continues c = false)
    (hfraction : token.kind = .numericLiteral → fractionLength tail = 0) : token.EndsBefore tail := by
  have halone : token.EndsBefore [] := by
    obtain ⟨first, more, kind, htext, hlexeme, -⟩ := h.lexeme_eq
    rw [endsBefore_iff htext, List.append_nil, hlexeme]
  simpa using (h.endsBefore_append htail hfraction).mpr halone

private theorem continues_inert (kind : Kind) : ∀ c ∈ inert, kind.continues c = false := by
  have hinert : inert.any kind.continues = false := by
    unfold Kind.continues
    split <;> decide
  simpa using hinert

private theorem fractionLength_inert {c : Char} (h : c ∈ inert) (rest : List Char) :
    fractionLength (c :: rest) = 0 := by
  simp only [inert, List.mem_cons, List.not_mem_nil, or_false] at h
  rcases h with rfl | rfl | rfl | rfl <;> rfl

/-- A token is read up to its end in front of a space, parenthesis or comma. -/
theorem IsReadAlone.endsBefore_inert {token : Token} (h : token.IsReadAlone) {c : Char}
    (hc : c ∈ inert) (rest : List Char) : token.EndsBefore (c :: rest) :=
  h.endsBefore (by simpa using continues_inert token.kind c hc) fun _ => fractionLength_inert hc rest

/-- A row is read in front of a space, parenthesis or comma as it is read alone. -/
theorem reads_inert {row : List (Bool × Token)} (h : ∀ entry ∈ row, entry.2.IsReadAlone) {c : Char}
    (hc : c ∈ inert) (rest : List Char) : Reads row (c :: rest) ↔ Reads row [] := by
  induction row with
  | nil => exact Iff.rfl
  | cons entry row ih =>
    obtain ⟨hentry, hrow⟩ := List.forall_mem_cons.mp h
    have htail : ∀ d ∈ (c :: rest).head?, entry.2.kind.continues d = false := by
      simpa using continues_inert entry.2.kind c hc
    rw [Reads, Reads, hentry.endsBefore_append htail fun _ => fractionLength_inert hc rest, ih hrow,
      List.append_nil]

/-- A token that an operand can end with is read up to its end in front of what can be written
behind an operand. -/
theorem IsReadAlone.endsBefore_calm {token : Token} (h : token.IsReadAlone)
    (hkind : token.kind ∈ operandEnds) {rest : List Char} (hrest : IsCalm rest) :
    token.EndsBefore rest := by
  have hends : ∀ kind ∈ operandEnds, (inert ++ ['.', '!', '+', '-']).any kind.continues = false := by
    decide
  refine h.endsBefore (fun c hc => ?_) fun _ => hrest.2
  simpa using List.any_eq_false.mp (hends _ hkind) c (hrest.1 c hc)

private theorem start_of_continues {kind : Kind} (h : kind.spelling ≠ "") {c : Char}
    (hc : kind.continues c = true) : isSpace c = false ∧ isWordStart c = false ∧
      c.isDigit = false ∧ c ∉ ['@', '"', '\''] := by
  have hsigns : c ∈ ['=', '>', '?', ':', '+', '-', '&', '|'] := by
    unfold Kind.continues at hc
    split at hc <;> simp_all [Kind.spelling]
    rcases hc with rfl | rfl <;> simp
  have hstarts : ['=', '>', '?', ':', '+', '-', '&', '|'].all (fun c =>
      isSpace c = false ∧ isWordStart c = false ∧ c.isDigit = false ∧
        c ∉ ['@', '"', '\'']) = true := by decide
  simpa only [decide_eq_true_eq] using List.all_eq_true.mp hstarts c hsigns

/-- An operator is read up to its end in front of a token that does not continue it. -/
theorem IsReadAlone.endsBefore_punct_iff {next : Token} (h : next.IsReadAlone) {kind : Kind}
    (hkind : kind.spelling ≠ "") (rest : List Char) :
    (punct kind).EndsBefore (next.text.toList ++ rest) ↔ kind.isContinuedBy next.kind = false := by
  obtain ⟨first, more, read, htext, hlexeme, hsort, herror, htrivia, hspelled⟩ := h.lexeme_eq
  have hsame : read.spelling = next.kind.spelling := by
    rw [← Kind.spelling_sort, hsort, Kind.spelling_sort]
  rw [Token.endsBefore_punct_iff hkind, htext]
  by_cases hempty : read.spelling = ""
  · -- a word or a literal starts with a character that continues no operator
    have hstart : kind.continues first = false := by
      by_contra hcontinues
      obtain ⟨hspace, hword, hdigit, hquote⟩ :=
        start_of_continues hkind (by simpa using hcontinues)
      have hother := lexeme_other hspace hword hdigit hquote more
      rw [hlexeme] at hother
      rcases hother with rfl | rfl | hother
      · exact herror rfl
      · cases htrivia
      · exact hother hempty
    simp [hstart, Kind.isContinuedBy, ← hsame, hempty]
  · have hfirst : next.kind.spelling.toList = first :: more := by
      rw [← hsame, ← hspelled.resolve_left hempty, htext]
    simp [Kind.isContinuedBy, hfirst]

/-- Numbers are the tokens that start with a digit. -/
theorem IsReadAlone.head_isDigit {token : Token} (h : token.IsReadAlone) :
    ∃ first more, token.text.toList = first :: more ∧
      (first.isDigit = true ↔ token.kind = .numericLiteral) := by
  obtain ⟨first, more, kind, htext, hlexeme, hsort, -⟩ := h.lexeme_eq
  refine ⟨first, more, htext, ?_⟩
  rw [← Kind.sort_eq_numericLiteral, ← hsort, Kind.sort_eq_numericLiteral]
  obtain rfl : (lexeme first more).1 = kind := congrArg Prod.fst hlexeme
  exact ⟨fun hdigit => by rw [lexeme_digit hdigit], isDigit_of_lexeme⟩

/-- No word starts with a digit. -/
theorem IsReadAlone.first_word {token : Token} (h : token.IsReadAlone)
    (hkind : token.kind.sort = .identifier) : ∀ c ∈ token.text.toList.head?, c.isDigit = false := by
  obtain ⟨first, more, htext, hdigit⟩ := h.head_isDigit
  rw [htext]
  rintro _ ⟨⟩
  rw [← Bool.not_eq_true, hdigit]
  intro hnumber
  rw [hnumber] at hkind
  cases hkind

/-- A number goes on with a fraction if it consists of digits only. -/
theorem IsReadAlone.endsBefore_fraction {token : Token} (h : token.IsReadAlone)
    (hkind : token.kind = .numericLiteral) {digit : Char} (hdigit : digit.isDigit = true)
    (rest : List Char) :
    token.EndsBefore ('.' :: digit :: rest) ↔ token.text.toList.all isDigitOrSeparator = false := by
  obtain ⟨first, more, kind, htext, hlexeme, hsort, -⟩ := h.lexeme_eq
  have hfirst : first.isDigit = true := by
    obtain ⟨_, _, htext', hfirst⟩ := h.head_isDigit
    obtain ⟨rfl, -⟩ := List.cons.inj (htext.symm.trans htext')
    exact hfirst.mpr hkind
  have hend : numberLength more = more.length := by
    rw [lexeme_digit hfirst] at hlexeme
    exact congrArg Prod.snd hlexeme
  have hall : token.text.toList.all isDigitOrSeparator = more.all isDigitOrSeparator := by
    rw [htext, List.all_cons, isDigitOrSeparator, hfirst, Bool.true_or, Bool.true_and]
  have hpoint : isDigitOrSeparator '.' = false ∧ Char.isAlpha '.' = false := by decide
  have hstop : ∀ c ∈ ('.' :: digit :: rest).head?, isDigitOrSeparator c = false ∧
      c.isAlpha = false := by
    rintro _ ⟨⟩
    exact hpoint
  rw [endsBefore_iff htext, lexeme_digit hfirst, hall]
  constructor
  · intro hlength
    by_contra hdigits
    rw [Bool.not_eq_false] at hdigits
    have hwhole : countWhile isDigitOrSeparator (more ++ '.' :: digit :: rest) = more.length := by
      rw [countWhile_stopped fun c hc => (hstop c hc).1, countWhile,
        List.takeWhile_eq_self_iff.mpr (List.all_eq_true.mp hdigits)]
    have hfraction : 2 ≤ fractionLength ('.' :: digit :: rest) := by
      rw [fractionLength, if_pos hdigit]
      omega
    simp only [numberLength, hwhole, List.drop_left] at hlength
    omega
  · intro hdigits
    rw [numberLength_append hstop (.inr hdigits), hend]

end Ends

section Calm

theorem isCalm_nil : IsCalm [] :=
  ⟨by simp, rfl⟩

theorem isCalm_inert {c : Char} (h : c ∈ inert) (rest : List Char) : IsCalm (c :: rest) :=
  ⟨by simpa using .inl h, fractionLength_inert h rest⟩

theorem isCalm_operator {kind : Kind} (h : kind ∈ [.bang, .plusPlus, .minusMinus])
    (rest : List Char) : IsCalm (kind.spelling.toList ++ rest) := by
  simp only [List.mem_cons, List.not_mem_nil, or_false] at h
  rcases h with rfl | rfl | rfl <;> exact ⟨by simp [Kind.spelling], rfl⟩

/-- A name is no fraction. -/
theorem isCalm_member {name : Token} (h : name.IsReadAlone) (hkind : name.kind.sort = .identifier)
    (rest : List Char) : IsCalm ('.' :: (name.text.toList ++ rest)) := by
  obtain ⟨first, more, -, htext, -⟩ := h.lexeme_eq
  have hdigit := h.first_word hkind
  rw [htext] at hdigit ⊢
  exact ⟨by simp, by simp [fractionLength, hdigit first rfl]⟩

end Calm

end Token

end SourceGen
