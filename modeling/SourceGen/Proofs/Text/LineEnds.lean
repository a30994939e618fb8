import SourceGen.Proofs.Text.Split

/-! The ends of lines. A text that is split into lines, and is read again as XML, has a line feed for
each of its line ends. -/

namespace SourceGen

/-- A text as XML is read: a carriage return belongs to the line feed behind it, and stands for a line
feed if there is none. -/
def Xml.readLines : List Char → List Char
  | [] => []
  | c :: rest =>
    if c = '\r' then if rest.head? = some '\n' then readLines rest else '\n' :: readLines rest
    else c :: readLines rest

namespace Text

/-- Whether a line feed follows, behind carriage returns at most. -/
def endsLine (rest : List Char) : Bool :=
  (rest.dropWhile (· = '\r')).head? == some '\n'

/-- The text with a line feed for each line end: for a line feed with the carriage returns in front of
it, and for any other carriage return. -/
def lineFeeds : List Char → List Char
  | [] => []
  | c :: rest =>
    if c = '\r' then if endsLine rest then lineFeeds rest else '\n' :: lineFeeds rest
    else c :: lineFeeds rest

section Line

variable {c : Char} {front back rest text : List Char}

@[simp] theorem endsLine_nil : endsLine [] = false :=
  rfl

@[simp] theorem endsLine_return : endsLine ('\r' :: rest) = endsLine rest := by
  simp [endsLine]

theorem endsLine_cons (h : c ≠ '\r') : endsLine (c :: rest) = (c == '\n') := by
  simp [endsLine, h]

@[simp] theorem lineFeeds_nil : lineFeeds [] = [] :=
  rfl

theorem lineFeeds_return : lineFeeds ('\r' :: rest) =
    if endsLine rest then lineFeeds rest else '\n' :: lineFeeds rest := by
  simp [lineFeeds]

theorem lineFeeds_cons (h : c ≠ '\r') : lineFeeds (c :: rest) = c :: lineFeeds rest := by
  simp [lineFeeds, h]

theorem lineFeeds_append_left (h : '\r' ∉ front) :
    lineFeeds (front ++ back) = front ++ lineFeeds back := by
  induction front with
  | nil => rfl
  | cons c front ih =>
    obtain ⟨hc, hfront⟩ : '\r' ≠ c ∧ '\r' ∉ front := by simpa using h
    rw [List.cons_append, lineFeeds_cons (Ne.symm hc), ih hfront, List.cons_append]

private theorem return_not_mem : '\r' ∉ lineFeeds text := by
  induction text with
  | nil => simp
  | cons c text ih =>
    by_cases hc : c = '\r'
    · rw [hc, lineFeeds_return]
      split
      · exact ih
      · simp [ih]
    · simp [lineFeeds_cons hc, ih, Ne.symm hc]

/-- A text without carriage returns stays as it is. -/
theorem lineFeeds_eq_self_iff : lineFeeds text = text ↔ '\r' ∉ text :=
  ⟨fun h => h ▸ return_not_mem, fun h => by
    rw [← List.append_nil text, lineFeeds_append_left h, lineFeeds_nil]⟩

private theorem endsLine_append (h : ∀ c ∈ back.head?, c ≠ '\r' ∧ c ≠ '\n') :
    endsLine (front ++ back) = endsLine front := by
  induction front with
  | nil =>
    cases back with
    | nil => rfl
    | cons c back =>
      obtain ⟨hr, hn⟩ := h c rfl
      rw [List.nil_append, endsLine_cons hr, endsLine_nil, beq_eq_false_iff_ne]
      exact hn
  | cons c front ih =>
    by_cases hc : c = '\r'
    · rw [hc, List.cons_append, endsLine_return, endsLine_return, ih]
    · rw [List.cons_append, endsLine_cons hc, endsLine_cons hc]

/-- Line ends can be looked at on either side of another character. -/
theorem lineFeeds_append (h : ∀ c ∈ back.head?, c ≠ '\r' ∧ c ≠ '\n') :
    lineFeeds (front ++ back) = lineFeeds front ++ lineFeeds back := by
  induction front with
  | nil => rfl
  | cons c front ih =>
    by_cases hc : c = '\r'
    · rw [hc, List.cons_append, lineFeeds_return, lineFeeds_return, endsLine_append h, ih]
      split <;> rfl
    · rw [List.cons_append, lineFeeds_cons hc, lineFeeds_cons hc, ih, List.cons_append]

private theorem mem_of_endsLine (h : endsLine rest = true) : '\n' ∈ rest := by
  induction rest with
  | nil => cases h
  | cons c rest ih =>
    by_cases hc : c = '\r'
    · rw [hc, endsLine_return] at h
      exact List.mem_cons_of_mem _ (ih h)
    · rw [endsLine_cons hc, beq_iff_eq] at h
      exact h ▸ List.mem_cons_self

theorem length_lineFeeds_le : (lineFeeds text).length ≤ text.length := by
  induction text with
  | nil => simp
  | cons c text ih =>
    by_cases hc : c = '\r'
    · rw [hc, lineFeeds_return]
      split
      · exact Nat.le_succ_of_le ih
      · exact Nat.succ_le_succ ih
    · rw [lineFeeds_cons hc]
      exact Nat.succ_le_succ ih

/-- Whether the line ends of a text are those of the text that is written for it, character by
character. -/
structure KeepsLines (written : Char → List Char) : Prop where
  carriageReturn : written '\r' = ['\r']
  lineFeed : written '\n' = ['\n']
  other : ∀ c, c ≠ '\r' → c ≠ '\n' →
    written c ≠ [] ∧ ∀ d ∈ written c, d ≠ '\r' ∧ d ≠ '\n'

section Written

variable {written : Char → List Char} (h : KeepsLines written)
include h

private theorem endsLine_flatMap : endsLine (text.flatMap written) = endsLine text := by
  induction text with
  | nil => rfl
  | cons c text ih =>
    by_cases hr : c = '\r'
    · rw [hr, List.flatMap_cons, h.carriageReturn, List.singleton_append, endsLine_return,
        endsLine_return, ih]
    · rw [endsLine_cons hr, List.flatMap_cons]
      by_cases hn : c = '\n'
      · rw [hn, h.lineFeed, List.singleton_append, endsLine_cons (by decide)]
      · obtain ⟨hne, hall⟩ := h.other c hr hn
        obtain ⟨d, rest, hwritten⟩ := List.exists_cons_of_ne_nil hne
        rw [hwritten] at hall ⊢
        obtain ⟨hdr, hdn⟩ := hall d List.mem_cons_self
        rw [List.cons_append, endsLine_cons hdr, beq_false_of_ne hdn, beq_false_of_ne hn]

/-- A text can be written before its line ends are looked at, or afterwards. -/
theorem lineFeeds_flatMap :
    lineFeeds (text.flatMap written) = (lineFeeds text).flatMap written := by
  induction text with
  | nil => rfl
  | cons c text ih =>
    by_cases hr : c = '\r'
    · rw [hr, List.flatMap_cons, h.carriageReturn, List.singleton_append, lineFeeds_return,
        lineFeeds_return, endsLine_flatMap h, ih]
      split
      · rfl
      · rw [List.flatMap_cons, h.lineFeed, List.singleton_append]
    · have hreturn : '\r' ∉ written c := by
        by_cases hn : c = '\n'
        · rw [hn, h.lineFeed]
          decide
        · exact fun hm => ((h.other c hr hn).2 _ hm).1 rfl
      rw [List.flatMap_cons, lineFeeds_append_left hreturn, ih, lineFeeds_cons hr,
        List.flatMap_cons]

end Written

section Lines

/-- A character of a line as XML is read. -/
private def unreturned (c : Char) : Char :=
  if c = '\r' then '\n' else c

theorem dropWhileEnd_cons (p : Char → Bool) :
    dropWhileEnd p (c :: text) =
      if dropWhileEnd p text = [] then (if p c then [] else [c]) else c :: dropWhileEnd p text := by
  simp only [dropWhileEnd, List.reverse_cons, List.dropWhile_append, List.reverse_eq_nil_iff]
  by_cases hnil : text.reverse.dropWhile p = []
  · cases hc : p c <;> simp [hnil, hc]
  · simp [hnil]

private theorem getLast?_dropWhileEnd : (dropWhileEnd (· = '\r') text).getLast? ≠ some '\r' := by
  rw [dropWhileEnd, List.getLast?_reverse]
  intro h
  have hnot := List.head?_dropWhile_not (· = '\r') text.reverse
  rw [h] at hnot
  simp at hnot

private theorem dropWhileEnd_eq_self (h : text.getLast? ≠ some '\r') :
    dropWhileEnd (· = '\r') text = text := by
  rw [← List.head?_reverse] at h
  rw [dropWhileEnd, List.reverse_eq_iff]
  cases hreverse : text.reverse with
  | nil => rfl
  | cons c rest =>
    have hc : c ≠ '\r' := by simpa [hreverse] using h
    simp [hc]

private theorem readLines_line (hn : '\n' ∉ text) : Xml.readLines text = text.map unreturned := by
  induction text with
  | nil => rfl
  | cons c text ih =>
    obtain ⟨-, hn⟩ : '\n' ≠ c ∧ '\n' ∉ text := by simpa using hn
    have hhead : text.head? ≠ some '\n' := fun hhead => hn (List.mem_of_head? hhead)
    rw [Xml.readLines, if_neg hhead, ih hn, List.map_cons, unreturned]
    split <;> rfl

private theorem readLines_append (hn : '\n' ∉ front) (hr : front.getLast? ≠ some '\r') :
    Xml.readLines (front ++ '\n' :: rest) =
      front.map unreturned ++ '\n' :: Xml.readLines rest := by
  induction front with
  | nil => rfl
  | cons c front ih =>
    obtain ⟨-, hn⟩ : '\n' ≠ c ∧ '\n' ∉ front := by simpa using hn
    rw [List.cons_append, Xml.readLines]
    cases front with
    | nil =>
      have hc : c ≠ '\r' := by simpa using hr
      simp [Xml.readLines, unreturned, hc]
    | cons d front =>
      have hd : '\n' ≠ d := fun heq => hn (heq ▸ List.mem_cons_self)
      rw [List.getLast?_cons_cons] at hr
      have hhead : (d :: front ++ '\n' :: rest).head? ≠ some '\n' := by simpa using hd.symm
      rw [if_neg hhead, ih hn hr]
      simp only [List.map_cons, List.cons_append, unreturned]
      split <;> rfl

private theorem endsLine_append_lineFeed (hn : '\n' ∉ front) :
    endsLine (front ++ '\n' :: rest) = true ↔ dropWhileEnd (· = '\r') front = [] := by
  induction front with
  | nil => simp [endsLine_cons, dropWhileEnd]
  | cons c front ih =>
    obtain ⟨hc, hn⟩ : '\n' ≠ c ∧ '\n' ∉ front := by simpa using hn
    rw [List.cons_append, dropWhileEnd_cons]
    by_cases hr : c = '\r'
    · rw [hr, endsLine_return, ih hn]
      split <;> simp_all
    · rw [endsLine_cons hr]
      split <;> simp [hr, hc.symm]

/-- The carriage returns in front of a line feed belong to it. -/
private theorem lineFeeds_append_lineFeed (hn : '\n' ∉ front) :
    lineFeeds (front ++ '\n' :: rest) =
      (dropWhileEnd (· = '\r') front).map unreturned ++ '\n' :: lineFeeds rest := by
  induction front with
  | nil => exact lineFeeds_cons (by decide)
  | cons c front ih =>
    have hfront : '\n' ∉ front := fun hm => hn (List.mem_cons_of_mem _ hm)
    have hends : endsLine (front ++ '\n' :: rest) = true ↔
        dropWhileEnd (· = '\r') front = [] := endsLine_append_lineFeed hfront
    rw [List.cons_append, dropWhileEnd_cons]
    by_cases hr : c = '\r'
    · subst hr
      simp only [lineFeeds_return, hends, ih hfront]
      split
      · next hempty => simp [hempty]
      · simp [unreturned]
    · rw [lineFeeds_cons hr, ih hfront]
      split
      · next hempty => simp [hempty, hr, unreturned]
      · simp [hr, unreturned]

private theorem lineFeeds_line (hn : '\n' ∉ text) : lineFeeds text = text.map unreturned := by
  induction text with
  | nil => rfl
  | cons c text ih =>
    obtain ⟨-, hn⟩ : '\n' ≠ c ∧ '\n' ∉ text := by simpa using hn
    have hends : endsLine text = false := by
      rw [← Bool.not_eq_true]
      exact fun hends => hn (mem_of_endsLine hends)
    rw [lineFeeds, hends, ih hn, List.map_cons, unreturned]
    split <;> rfl

/-- A text that is split into lines without the carriage returns at their ends is read with a line
feed for each line end. -/
theorem readLines_splitChars (text : List Char) (h : text.getLast? ≠ some '\r') :
    Xml.readLines (['\n'].intercalate
      ((splitChars '\n' text).map (dropWhileEnd (· = '\r')))) = lineFeeds text := by
  have hsingle {line : List Char} (hline : '\n' ∉ line) : splitChars '\n' line = [line] := by
    rw [splitChars_eq_splitOn, List.splitOn_eq_singleton hline]
  by_cases hn : '\n' ∈ text
  · obtain ⟨line, rest, htext, hline⟩ := List.eq_append_cons_of_mem hn
    have hlength : rest.length < text.length := by
      rw [htext, List.length_append, List.length_cons]
      omega
    have hrest : rest.getLast? ≠ some '\r' := by
      intro hlast
      simp [htext, List.getLast?_append, List.getLast?_cons, hlast] at h
    have hkept : '\n' ∉ dropWhileEnd (· = '\r') line := by
      rw [dropWhileEnd, List.mem_reverse]
      exact fun hm => hline (List.mem_reverse.mp ((List.dropWhile_sublist _).subset hm))
    have hsplit : (splitChars '\n' rest).map (dropWhileEnd (· = '\r')) ≠ [] := by
      rw [splitChars_eq_splitOn, Ne, List.map_eq_nil_iff]
      exact List.splitOn_ne_nil _ _
    rw [htext, splitChars_append, hsingle hline, List.map_append, List.map_singleton,
      List.singleton_append, List.intercalate_cons_of_ne_nil hsplit, List.append_assoc,
      List.singleton_append, readLines_append hkept getLast?_dropWhileEnd,
      readLines_splitChars rest hrest, lineFeeds_append_lineFeed hline]
  · rw [hsingle hn, List.map_singleton, List.intercalate_singleton, dropWhileEnd_eq_self h,
      readLines_line hn, lineFeeds_line hn]
termination_by text.length

end Lines

end Line

end Text

end SourceGen
