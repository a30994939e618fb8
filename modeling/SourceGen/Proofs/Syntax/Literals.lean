import SourceGen.Proofs.Syntax.Lexeme
import SourceGen.Symbol.Constant

/-! What stands in a literal, and how it is read again. The spelling of a text in quotes is read as
one token, and by the rules for escapes as the text. -/

namespace SourceGen

namespace Literal

/-- The character that is written as a backslash and another character. -/
def simpleEscape? : Char → Option Char
  | '\'' => some '\''
  | '"' => some '"'
  | '\\' => some '\\'
  | 'n' => some '\n'
  | 'r' => some '\r'
  | 't' => some '\t'
  | '0' => some '\x00'
  | _ => none

/-- The character whose number four hexadecimal digits spell. -/
def coded? (a b c d : Char) : Option Char :=
  match Text.hexDigitValue? a, Text.hexDigitValue? b, Text.hexDigitValue? c,
    Text.hexDigitValue? d with
  | some a, some b, some c, some d =>
    let code := ((a * 16 + b) * 16 + c) * 16 + d
    if code.isValidChar then some (Char.ofNat code) else none
  | _, _, _, _ => none

/-- The text that stands between two quotes. It has no quote, backslash or line feed of its own,
only escapes for them. -/
def unescape? (quote : Char) : List Char → Option (List Char)
  | [] => some []
  | '\\' :: 'u' :: a :: b :: c :: d :: rest =>
    (coded? a b c d).bind fun first => (unescape? quote rest).map (first :: ·)
  | '\\' :: c :: rest =>
    (simpleEscape? c).bind fun first => (unescape? quote rest).map (first :: ·)
  | c :: rest =>
    if c = quote ∨ c = '\\' ∨ c = '\n' then none else (unescape? quote rest).map (c :: ·)

/-- The text of a literal in the given quotes. -/
def unquote? (quote : Char) (text : String) : Option (List Char) :=
  match text.toList with
  | [] => none
  | first :: rest =>
    if first = quote ∧ rest.getLast? = some quote then unescape? quote rest.dropLast else none

/-- The text that a string literal stands for. -/
def readString? (text : String) : Option String :=
  (unquote? '"' text).map String.ofList

/-- The character that a character literal stands for. -/
def readChar? (text : String) : Option Char :=
  match unquote? '\'' text with
  | some [c] => some c
  | _ => none

/-- How a character is written between quotes. -/
inductive IsSpelling (quote c : Char) : List Char → Prop
  | plain (hquote : c ≠ quote) (hslash : c ≠ '\\') (hcontrol : Text.isControl c = false) :
      IsSpelling quote c [c]
  | simple {escape : Char} (h : simpleEscape? escape = some c) : IsSpelling quote c ['\\', escape]
  | coded (h : c.toNat < 65536) : IsSpelling quote c ('\\' :: 'u' :: hexDigits c.toNat)

section Spelling

theorem hexDigitValue?_hexDigit {value : Nat} (h : value < 16) :
    Text.hexDigitValue? (hexDigit value) = some value := by
  have hall : ∀ value < 16, Text.hexDigitValue? (hexDigit value) = some value := by decide
  exact hall value h

theorem coded?_hexDigits {c : Char} (h : c.toNat < 65536) :
    ∃ w x y z, hexDigits c.toNat = [w, x, y, z] ∧ coded? w x y z = some c := by
  refine ⟨_, _, _, _, rfl, ?_⟩
  have hdigit (value : Nat) : Text.hexDigitValue? (hexDigit (value % 16)) = some (value % 16) :=
    hexDigitValue?_hexDigit (Nat.mod_lt _ (by decide))
  have hcode : ((c.toNat / 4096 % 16 * 16 + c.toNat / 256 % 16) * 16 + c.toNat / 16 % 16) * 16 +
      c.toNat % 16 = c.toNat := by omega
  have hvalid : c.toNat.isValidChar := c.valid
  simp only [coded?, hdigit, hcode, Char.ofNat_toNat, if_pos hvalid]

private theorem toNat_of_isControl {c : Char} (h : Text.isControl c = true) : c.toNat < 65536 := by
  simp only [Text.isControl, Bool.or_eq_true, Bool.and_eq_true, decide_eq_true_eq] at h
  omega

theorem isSpelling_escaped (c : Char) : IsSpelling '"' c (escaped c) := by
  unfold escaped
  split
  · exact .simple rfl
  · exact .simple rfl
  · exact .simple rfl
  · exact .simple rfl
  · exact .simple rfl
  · exact .simple rfl
  · next hquote hslash _ _ _ _ =>
    split
    · next hcontrol => exact .coded (toNat_of_isControl hcontrol)
    · next hcontrol => exact .plain hquote hslash (by simpa using hcontrol)

theorem isSpelling_escapedChar (c : Char) : IsSpelling '\'' c (escapedChar c) := by
  unfold escapedChar
  split
  · exact .simple rfl
  · exact .plain (by decide) (by decide) (by decide)
  · next hquote hdouble =>
    -- all other characters are spelled as in a text
    have hspelling := isSpelling_escaped c
    generalize escaped c = text at hspelling ⊢
    cases hspelling with
    | plain _ hslash hcontrol => exact .plain hquote hslash hcontrol
    | simple h => exact .simple h
    | coded h => exact .coded h

/-- Each character of a text is read again from its spelling. -/
theorem IsSpelling.unescape?_append {quote c : Char} {text : List Char}
    (h : IsSpelling quote c text) (rest : List Char) :
    unescape? quote (text ++ rest) = (unescape? quote rest).map (c :: ·) := by
  cases h with
  | plain hquote hslash hcontrol =>
    have hline : c ≠ '\n' := by rintro rfl; exact absurd hcontrol (by decide)
    rw [List.singleton_append, unescape?, if_neg (by simp [hquote, hslash, hline])]
    · simp [hslash]
    · simp [hslash]
  | @simple escape h =>
    have hcoded : escape ≠ 'u' := by rintro rfl; cases h
    rw [List.cons_append, List.singleton_append, unescape?, h, Option.bind_some]
    simp [hcoded]
  | coded h =>
    obtain ⟨w, x, y, z, hdigits, hcoded⟩ := coded?_hexDigits h
    rw [hdigits, List.cons_append, List.cons_append]
    simp only [List.cons_append, List.nil_append, unescape?, hcoded, Option.bind_some]

theorem unescape?_spelled {quote : Char} {spell : Char → List Char}
    (h : ∀ c, IsSpelling quote c (spell c)) (text : List Char) :
    unescape? quote (text.flatMap spell) = some text := by
  induction text with
  | nil => simp [unescape?]
  | cons c text ih => rw [List.flatMap_cons, (h c).unescape?_append, ih, Option.map_some]

/-- What stands between two quotes is read from the literal. -/
theorem unquote?_quoted (quote : Char) (chars : List Char) :
    unquote? quote (String.ofList (quote :: chars ++ [quote])) = unescape? quote chars := by
  simp [unquote?]

theorem readString?_string (value : String) : readString? (string value) = some value := by
  rw [readString?, string, unquote?_quoted, unescape?_spelled isSpelling_escaped, Option.map_some,
    String.ofList_toList]

theorem readChar?_charLiteral (c : Char) : readChar? (charLiteral (escapedChar c)) = some c := by
  have hread := unescape?_spelled isSpelling_escapedChar [c]
  rw [List.flatMap_singleton] at hread
  rw [readChar?, charLiteral, unquote?_quoted, hread]

end Spelling

section Lexing

private theorem isQuoted_hexDigits (value : Nat) {rest : List Char} (h : Token.IsQuoted rest) :
    Token.IsQuoted (hexDigits value ++ rest) := by
  have hplain : ∀ digit < 16, hexDigit digit ≠ '"' ∧ hexDigit digit ≠ '\\' ∧
      hexDigit digit ≠ '\n' := by decide
  have hcons (value : Nat) {rest : List Char} (h : Token.IsQuoted rest) :
      Token.IsQuoted (hexDigit (value % 16) :: rest) := by
    obtain ⟨hquote, hslash, hline⟩ := hplain _ (Nat.mod_lt value (by decide))
    exact .plain hquote hslash hline h
  exact hcons _ (hcons _ (hcons _ (hcons _ h)))

/-- A spelling neither closes a string nor ends its line. -/
theorem IsSpelling.isQuoted_append {c : Char} {text rest : List Char} (h : IsSpelling '"' c text)
    (hrest : Token.IsQuoted rest) : Token.IsQuoted (text ++ rest) := by
  cases h with
  | plain hquote hslash hcontrol =>
    have hline : c ≠ '\n' := by rintro rfl; exact absurd hcontrol (by decide)
    exact .plain hquote hslash hline hrest
  | @simple escape h =>
    have hline : escape ≠ '\n' := by rintro rfl; cases h
    exact .escape hline hrest
  | coded h => exact .escape (by decide) (isQuoted_hexDigits _ hrest)

theorem stringTail_spelled {spell : Char → List Char} (h : ∀ c, IsSpelling '"' c (spell c))
    (text rest : List Char) :
    Token.stringTail (text.flatMap spell ++ '"' :: rest) =
      (.stringLiteral, (text.flatMap spell).length + 1) := by
  have hquoted : Token.IsQuoted (text.flatMap spell) := by
    induction text with
    | nil => exact .nil
    | cons c text ih => exact (h c).isQuoted_append ih
  exact Token.stringTail_quoted hquoted rest

end Lexing

/-- The spelling of a text in quotes is one token, from which the text is read again; so different
texts are spelled differently. -/
theorem string_reads :
    (∀ value, Token.tokenize (string value) = [⟨.stringLiteral, string value⟩] ∧
      readString? (string value) = some value) ∧ Function.Injective string := by
  have hread (value : String) : readString? (string value) = some value :=
    readString?_string value
  refine ⟨fun value => ⟨?_, hread value⟩, fun value other h => ?_⟩
  · have htail := stringTail_spelled isSpelling_escaped value.toList []
    have hlexeme : Token.lexeme '"' (value.toList.flatMap escaped ++ ['"']) =
        (.stringLiteral, (value.toList.flatMap escaped ++ ['"']).length) := by
      rw [List.length_append]
      exact htail
    rw [Token.tokenize, string, String.toList_ofList, List.cons_append, Token.ofChars_cons, hlexeme,
      List.take_length, List.drop_length, Token.ofChars]
  · have hsame := congrArg readString? h
    rw [hread, hread] at hsame
    exact Option.some.inj hsame

/-- A digit behind a control character is no part of its number. -/
example : string "\x01F" = "\"\\u0001F\"" := by decide

end Literal

end SourceGen
