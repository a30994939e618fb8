import SourceGen.Proofs.Syntax.Literals
import SourceGen.Proofs.Text.LineEnds
import SourceGen.Snapshot.Constant
import SourceGen.Syntax.Trivia

/-! Line terminators in what is written for a text. A comment or a literal with one in it ends
there, and the rest of the text is read as code. -/

namespace SourceGen

namespace Text

/-- The characters that end a line of source code. -/
def isTerminator (c : Char) : Bool :=
  c = '\n' || c = '\r' || c = '\u0085' || c = '\u2028' || c = '\u2029'

/-- Whether a text stays on the line that it starts on. -/
def OnOneLine (text : String) : Prop :=
  ∀ c ∈ text.toList, isTerminator c = false

/-- Whether each terminator in a text is a line feed, or a carriage return behind which only
carriage returns come up to a line feed or the end of the text. -/
def BreaksAtLineFeeds (text : List Char) : Prop :=
  ∀ front c back, text = front ++ c :: back → isTerminator c = true →
    c = '\n' ∨ c = '\r' ∧ (endsLine back = true ∨ ∀ d ∈ back, d = '\r')

section Lines

theorem breaksAtLineFeeds_cons {c : Char} {rest : List Char} :
    BreaksAtLineFeeds (c :: rest) ↔
      (isTerminator c = true →
          c = '\n' ∨ c = '\r' ∧ (endsLine rest = true ∨ ∀ d ∈ rest, d = '\r')) ∧
        BreaksAtLineFeeds rest := by
  constructor
  · intro h
    exact ⟨h [] c rest rfl, fun front d back hrest => h (c :: front) d back (by rw [hrest]; rfl)⟩
  · rintro ⟨hfirst, hrest⟩ front d back htext
    rcases List.cons_eq_append_iff.mp htext with ⟨rfl, hcons⟩ | ⟨front, rfl, hrest'⟩
    · obtain ⟨rfl, rfl⟩ := List.cons.inj hcons
      exact hfirst
    · exact hrest front d back hrest'

/-- A character other than the separator belongs to the first part. -/
theorem splitChars_cons {separator c : Char} (h : c ≠ separator) (rest : List Char) :
    ∃ part parts, splitChars separator rest = part :: parts ∧
      splitChars separator (c :: rest) = (c :: part) :: parts := by
  have hne : splitChars separator rest ≠ [] := by
    rw [splitChars_eq_splitOn]
    exact List.splitOn_ne_nil _ _
  obtain ⟨part, parts, hparts⟩ := List.exists_cons_of_ne_nil hne
  exact ⟨part, parts, hparts, by rw [splitChars, if_neg h, hparts]⟩

/-- The first line of a text is empty but for carriage returns if nothing else comes in front of its
line feed, or if the text is nothing else. -/
private theorem firstLine_eq_nil_iff {text part : List Char} {parts : List (List Char)}
    (h : splitChars '\n' text = part :: parts) :
    dropWhileEnd (· = '\r') part = [] ↔ endsLine text = true ∨ ∀ d ∈ text, d = '\r' := by
  induction text generalizing part parts with
  | nil =>
    obtain ⟨rfl, -⟩ := List.cons.inj h
    simp [dropWhileEnd]
  | cons c rest ih =>
    by_cases hline : c = '\n'
    · subst hline
      rw [splitChars, if_pos rfl] at h
      obtain ⟨rfl, -⟩ := List.cons.inj h
      simp [endsLine_cons, dropWhileEnd]
    · obtain ⟨first, others, hsplit, hcons⟩ := splitChars_cons hline rest
      obtain ⟨rfl, -⟩ := List.cons.inj (hcons.symm.trans h)
      rw [dropWhileEnd_cons, List.forall_mem_cons]
      by_cases hreturn : c = '\r'
      · subst hreturn
        simp [endsLine_return, ← ih hsplit]
      · rw [endsLine_cons hreturn]
        split <;> simp [hreturn, hline]

/-- The lines of a text, without the carriage returns at their ends, have no terminators exactly if
the text breaks at line feeds only. -/
theorem lines_terminated_iff (text : List Char) :
    (∀ line ∈ splitChars '\n' text, ∀ c ∈ dropWhileEnd (· = '\r') line, isTerminator c = false) ↔
      BreaksAtLineFeeds text := by
  induction text with
  | nil => simp [splitChars, dropWhileEnd, BreaksAtLineFeeds]
  | cons c rest ih =>
    rw [breaksAtLineFeeds_cons, ← ih]
    by_cases hline : c = '\n'
    · subst hline
      rw [splitChars, if_pos rfl, List.forall_mem_cons]
      simp [dropWhileEnd]
    · obtain ⟨part, parts, hparts, hcons⟩ := splitChars_cons hline rest
      rw [hcons, hparts, List.forall_mem_cons, List.forall_mem_cons, ← and_assoc,
        ← firstLine_eq_nil_iff hparts, dropWhileEnd_cons]
      refine and_congr_left fun _ => ?_
      by_cases hempty : dropWhileEnd (· = '\r') part = []
      · by_cases hreturn : c = '\r' <;> simp [hempty, hreturn, hline]
      · simp [hempty, hline]

end Lines

theorem onOneLine_append {text other : String} :
    OnOneLine (text ++ other) ↔ OnOneLine text ∧ OnOneLine other := by
  simp only [OnOneLine, String.toList_append, List.forall_mem_append]

/-- Whether a literal stays on its line is up to what stands between its quotes. -/
theorem onOneLine_quoted {quote : Char} (h : isTerminator quote = false) (chars : List Char) :
    OnOneLine (String.ofList (quote :: chars ++ [quote])) ↔
      ∀ c ∈ chars, isTerminator c = false := by
  simp only [OnOneLine, String.toList_ofList, List.cons_append, List.forall_mem_cons,
    List.forall_mem_append, List.not_mem_nil, h]
  simp

end Text

namespace Literal

/-- A terminator in the spelling of a character is that character, and is one of the two that are no
control characters. -/
theorem IsSpelling.eq_of_isTerminator {quote c d : Char} {text : List Char}
    (h : IsSpelling quote c text) (hm : d ∈ text) (hd : Text.isTerminator d = true) :
    d = c ∧ (c = '\u2028' ∨ c = '\u2029') := by
  have hterminator : d = '\n' ∨ d = '\r' ∨ d = '\u0085' ∨ d = '\u2028' ∨ d = '\u2029' := by
    simpa [Text.isTerminator, or_assoc] using hd
  cases h with
  | plain _ _ hcontrol =>
    obtain rfl := List.mem_singleton.mp hm
    refine ⟨rfl, ?_⟩
    rcases hterminator with rfl | rfl | rfl | hd
    · exact absurd hcontrol (by decide)
    · exact absurd hcontrol (by decide)
    · exact absurd hcontrol (by decide)
    · exact hd
  | @simple escape h =>
    have hescape : d = '\\' ∨ d = escape := by simpa using hm
    rcases hescape with rfl | rfl
    · exact absurd hd (by decide)
    · rcases hterminator with rfl | rfl | rfl | rfl | rfl <;> cases h
  | coded =>
    have hplain : ∀ value < 16, Text.isTerminator (hexDigit value) = false := by decide
    have hdigit (value : Nat) : Text.isTerminator (hexDigit (value % 16)) = false :=
      hplain _ (Nat.mod_lt _ (by decide))
    simp only [hexDigits, List.mem_cons, List.not_mem_nil, or_false] at hm
    rcases hm with rfl | rfl | rfl | rfl | rfl | rfl
    · exact absurd hd (by decide)
    · exact absurd hd (by decide)
    all_goals exact absurd hd (by rw [hdigit]; decide)

/-- What is written for a text has terminators exactly for those in the text that are no control
characters. -/
theorem spelled_terminated_iff {quote : Char} {spell : Char → List Char}
    (h : ∀ c, IsSpelling quote c (spell c)) (hline : spell '\u2028' = ['\u2028'])
    (hparagraph : spell '\u2029' = ['\u2029']) (text : List Char) :
    (∀ d ∈ text.flatMap spell, Text.isTerminator d = false) ↔
      '\u2028' ∉ text ∧ '\u2029' ∉ text := by
  constructor
  · intro hspelled
    have hkept {c : Char} (hc : spell c = [c]) (hterminator : Text.isTerminator c = true) :
        c ∉ text := by
      intro hm
      have hfree := hspelled c (List.mem_flatMap.mpr ⟨c, hm, by simp [hc]⟩)
      exact Bool.noConfusion (hterminator.symm.trans hfree)
    exact ⟨hkept hline (by decide), hkept hparagraph (by decide)⟩
  · rintro ⟨hline, hparagraph⟩ d hm
    obtain ⟨c, hc, hd⟩ := List.mem_flatMap.mp hm
    rw [← Bool.not_eq_true]
    intro hterminator
    obtain ⟨-, rfl | rfl⟩ := (h c).eq_of_isTerminator hd hterminator
    · exact hline hc
    · exact hparagraph hc

end Literal

namespace Trivia

theorem doc_onOneLine_iff (trivia : Trivia) (text : String) :
    (∀ token ∈ (trivia.doc text).lines, Text.OnOneLine token.text) ↔
      (∀ token ∈ trivia.lines, Text.OnOneLine token.text) ∧
        Text.BreaksAtLineFeeds text.toList := by
  have hmark : Text.OnOneLine "/// " := by unfold Text.OnOneLine; decide
  have hline (line : List Char) : Text.OnOneLine (docLine line).text ↔
      ∀ c ∈ Text.dropWhileEnd (· = '\r') line, Text.isTerminator c = false := by
    rw [docLine, Text.onOneLine_append, and_iff_right hmark, Text.OnOneLine, String.toList_ofList]
  simp only [doc, List.forall_mem_append, List.forall_mem_map, hline, Text.lines_terminated_iff]

end Trivia

/-- The lines of a comment have no terminators in them exactly if its text breaks at line feeds
only; a literal has none exactly if neither separator is in its text, as these are not escaped. -/
theorem Text.written_onOneLine_iff (trivia : Trivia) (text : String) :
    ((∀ token ∈ (trivia.doc text).lines, OnOneLine token.text) ↔
        (∀ token ∈ trivia.lines, OnOneLine token.text) ∧ BreaksAtLineFeeds text.toList) ∧
      (OnOneLine (Literal.string text) ↔ '\u2028' ∉ text.toList ∧ '\u2029' ∉ text.toList) ∧
      ∀ c, (∀ token ∈ (Constant.primitive (.char c)).toExpr.toTree.leaves, OnOneLine token.text) ↔
        c ≠ '\u2028' ∧ c ≠ '\u2029' := by
  refine ⟨trivia.doc_onOneLine_iff text, ?_, fun c => ?_⟩
  · rw [Literal.string, onOneLine_quoted (by decide),
      Literal.spelled_terminated_iff Literal.isSpelling_escaped rfl rfl]
  · have hspelled := Literal.spelled_terminated_iff Literal.isSpelling_escapedChar rfl rfl [c]
    rw [List.flatMap_singleton, List.mem_singleton, List.mem_singleton] at hspelled
    have hleaves : (Constant.primitive (.char c)).toExpr.toTree.leaves =
        [⟨.charLiteral, charLiteral (escapedChar c)⟩] := rfl
    rw [hleaves, List.forall_mem_singleton, charLiteral, onOneLine_quoted (by decide), hspelled]
    exact and_congr ne_comm ne_comm

/-- A line separator is written as it is in comments and literals. -/
theorem Text.separator_written :
    ¬ ∀ text : String, (∀ token ∈ (Trivia.doc {} text).lines, OnOneLine token.text) ∧
      OnOneLine (Literal.string text) ∧
      ∀ c ∈ text.toList, ∀ token ∈ (Constant.primitive (.char c)).toExpr.toTree.leaves,
        OnOneLine token.text := by
  intro h
  have hstring := (h "\u2028").2.1 '\u2028' (by decide)
  exact absurd hstring (by decide)

end SourceGen
