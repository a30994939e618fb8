import SourceGen.Proofs.Resource.Elements
import SourceGen.Proofs.Text.Split

/-! Fragments of well-formed XML 1.0: elements with their attributes, and text. A text between tags is
read up to the next tag. Comments, instructions and sections of characters are left out. -/

namespace SourceGen.Xml

/-- Whether a character may stand in a document, written or referred to. -/
def isLegal (c : Char) : Bool :=
  c = '\t' || c = '\n' || c = '\r' ||
    Text.Ranges.contains [(0x20, 0xD7FF), (0xE000, 0xFFFD), (0x10000, 0x10FFFF)] c.toNat

/-- Whether a document gives a text back as it is. It has a line feed for a carriage return. -/
def IsKept (text : String) : Prop :=
  ∀ c ∈ text.toList, isLegal c = true ∧ c ≠ '\r'

instance (text : String) : Decidable (IsKept text) :=
  inferInstanceAs (Decidable (∀ c ∈ text.toList, isLegal c = true ∧ c ≠ '\r'))

/-- Whether a document gives a text back in which only ampersands are escaped. -/
def IsKeptRaw (text : String) : Prop :=
  IsKept text ∧ '<' ∉ text.toList ∧ ¬"]]>".toList <:+: text.toList

instance (text : String) : Decidable (IsKeptRaw text) :=
  inferInstanceAs (Decidable (_ ∧ _ ∧ _))

theorem isKept_append {front back : String} :
    IsKept (front ++ back) ↔ IsKept front ∧ IsKept back := by
  rw [IsKept, String.toList_append, List.forall_mem_append]
  rfl

def isNameStart (c : Char) : Bool :=
  c = ':' || c = '_' || c.isAlpha ||
    Text.Ranges.contains
      [(0xC0, 0xD6), (0xD8, 0xF6), (0xF8, 0x2FF), (0x370, 0x37D), (0x37F, 0x1FFF), (0x200C, 0x200D),
        (0x2070, 0x218F), (0x2C00, 0x2FEF), (0x3001, 0xD7FF), (0xF900, 0xFDCF), (0xFDF0, 0xFFFD),
        (0x10000, 0xEFFFF)] c.toNat

def isNamePart (c : Char) : Bool :=
  isNameStart c || c = '-' || c = '.' || c.isDigit ||
    Text.Ranges.contains [(0xB7, 0xB7), (0x300, 0x36F), (0x203F, 0x2040)] c.toNat

/-- Whether a text is the name of an element or an attribute. -/
def isName (name : List Char) : Bool :=
  match name with
  | [] => false
  | c :: rest => isNameStart c && rest.all isNamePart

/-- Whether characters between tags are text with a certain content. -/
structure IsCharacterData (raw content : List Char) : Prop where
  legal : ∀ c ∈ raw, isLegal c = true
  tagless : '<' ∉ raw
  unclosed : ¬"]]>".toList <:+: raw
  meant : unescape raw = some content
  legal_content : ∀ c ∈ content, isLegal c = true

/-- A character of an attribute as it is meant: blanks count as spaces. -/
def spaced (c : Char) : Char :=
  if isSpace c then ' ' else c

/-- Whether characters in quotes are an attribute with a certain value. -/
structure IsAttributeValue (quote : Char) (raw value : List Char) : Prop where
  legal : ∀ c ∈ raw, isLegal c = true
  tagless : '<' ∉ raw
  quoted : quote ∉ raw
  meant : unescape (raw.map spaced) = some value
  legal_value : ∀ c ∈ value, isLegal c = true

/-- Whether characters are attributes, each with blanks in front. -/
inductive AreAttributes : List (String × String) → List Char → Prop
  | nil : AreAttributes [] []
  | cons {name value : String} {gap before after raw rest : List Char} {quote : Char}
      {attributes : List (String × String)} (gap_ne : gap ≠ [])
      (blank : ∀ c ∈ gap ++ before ++ after, isSpace c = true) (named : isName name.toList = true)
      (quotes : quote = '"' ∨ quote = '\'') (meant : IsAttributeValue quote raw value.toList)
      (next : AreAttributes attributes rest) :
    AreAttributes ((name, value) :: attributes)
      (gap ++ (name.toList ++ (before ++ '=' :: (after ++ quote :: (raw ++ quote :: rest)))))

/-- Whether characters are the name and the attributes in a tag. No two of these have the same
name. -/
inductive IsTag : String → List (String × String) → List Char → Prop
  | intro {name : String} {attributes : List (String × String)} {row blanks : List Char}
      (named : isName name.toList = true) (row_written : AreAttributes attributes row)
      (distinct : (attributes.map (·.1)).Nodup) (blank : ∀ c ∈ blanks, isSpace c = true) :
    IsTag name attributes (name.toList ++ (row ++ blanks))

/-- Whether characters are a fragment with these parts. -/
inductive Reads : List Node → List Char → Prop
  | nil : Reads [] []
  | text {raw content rest : List Char} {nodes : List Node} (meant : IsCharacterData raw content)
      (stops : ∀ c ∈ rest.head?, c = '<') (next : Reads nodes rest) :
    Reads (.text content :: nodes) (raw ++ rest)
  | element {name : String} {attributes : List (String × String)} {children nodes : List Node}
      {tag inside blanks rest : List Char} (start : IsTag name attributes tag)
      (within : Reads children inside) (blank : ∀ c ∈ blanks, isSpace c = true)
      (next : Reads nodes rest) :
    Reads (.element name attributes children :: nodes)
      ('<' :: (tag ++ '>' :: (inside ++ '<' :: '/' :: (name.toList ++ (blanks ++ '>' :: rest)))))
  | empty {name : String} {attributes : List (String × String)} {nodes : List Node}
      {tag rest : List Char} (start : IsTag name attributes tag) (next : Reads nodes rest) :
    Reads (.empty name attributes :: nodes) ('<' :: (tag ++ '/' :: '>' :: rest))

section References

variable {raw content : List Char}

theorem unescape_cons {c : Char} (h : c ≠ '&') (rest : List Char) :
    unescape (c :: rest) = (unescape rest).map (c :: ·) := by
  simp [unescape, unescapeFrom, h]

/-- Text whose characters are written one by one, so that each is read back, is read back. -/
theorem unescape_flatMap {written : Char → List Char}
    (h : ∀ c rest, unescape (written c ++ rest) = (unescape rest).map (c :: ·)) (text : List Char) :
    unescape (text.flatMap written) = some text := by
  induction text with
  | nil => rfl
  | cons c text ih => rw [List.flatMap_cons, h, ih, Option.map_some]

private theorem length_unescapeFrom {name : Option (List Char)}
    (h : unescapeFrom name raw = some content) : content.length ≤ raw.length := by
  fun_induction unescapeFrom name raw generalizing content with
  | case1 => simp_all
  | case2 | case5 | case6 => cases h
  | case3 rest ih => exact Nat.le_succ_of_le (ih h)
  | case4 c rest hc ih =>
    obtain ⟨tail, htail, rfl⟩ := Option.map_eq_some_iff.mp h
    simpa using ih htail
  | case7 rest name value hvalue hc ih =>
    obtain ⟨tail, htail, rfl⟩ := Option.map_eq_some_iff.mp h
    simpa using ih htail
  | case8 name c rest hc hsemicolon ih => exact Nat.le_succ_of_le (ih h)

/-- A reference is longer than what it stands for. -/
theorem length_lt_of_unescape (h : unescape raw = some content) (hm : '&' ∈ raw) :
    content.length < raw.length := by
  induction raw generalizing content with
  | nil => cases hm
  | cons c raw ih =>
    by_cases hc : c = '&'
    · subst hc
      have hrest : unescapeFrom (some []) raw = some content := h
      exact Nat.lt_succ_of_le (length_unescapeFrom hrest)
    · rw [unescape_cons hc] at h
      obtain ⟨tail, htail, rfl⟩ := Option.map_eq_some_iff.mp h
      exact Nat.succ_lt_succ (ih htail ((List.mem_cons.mp hm).resolve_left (Ne.symm hc)))

/-- A text without references is what is meant. -/
theorem unescape_eq_self (h : '&' ∉ raw) : unescape raw = some raw := by
  induction raw with
  | nil => rfl
  | cons c raw ih =>
    obtain ⟨hc, hraw⟩ : '&' ≠ c ∧ '&' ∉ raw := by simpa using h
    rw [unescape_cons hc.symm, ih hraw, Option.map_some]

end References

section Values

variable {raw : List Char}

theorem spaced_eq_self_iff {c : Char} : spaced c = c ↔ c ∉ ['\t', '\n', '\r'] := by
  unfold spaced
  by_cases h : isSpace c = true
  · rw [if_pos h]
    simp only [isSpace, Bool.or_eq_true, decide_eq_true_eq] at h
    rcases h with ((rfl | rfl) | rfl) | rfl <;> decide
  · rw [if_neg h]
    simp_all [isSpace]

/-- The characters that do not stand for themselves in an attribute in double quotes. -/
def markedInQuotes : List Char :=
  ['"', '<', '&', '\t', '\n', '\r']

/-- A value that is as long as what is written has no reference in it. -/
theorem eq_of_unescape {value : List Char} (h : unescape raw = some value)
    (hlength : raw.length ≤ value.length) : '&' ∉ raw ∧ raw = value := by
  have hplain : '&' ∉ raw := fun hm =>
    Nat.lt_irrefl _ (Nat.lt_of_lt_of_le (length_lt_of_unescape h hm) hlength)
  exact ⟨hplain, Option.some.inj ((unescape_eq_self hplain).symm.trans h)⟩

/-- An attribute is its own value if it has none of the characters that stand for something else. -/
theorem isAttributeValue_self_iff :
    IsAttributeValue '"' raw raw ↔ ∀ c ∈ raw, isLegal c = true ∧ c ∉ markedInQuotes := by
  have hspaced : raw.map spaced = raw ↔ ∀ c ∈ raw, c ∉ ['\t', '\n', '\r'] := by
    nth_rewrite 2 [← List.map_id raw]
    simp only [List.map_inj_left, id, spaced_eq_self_iff]
  constructor
  · intro h c hc
    obtain ⟨hplain, hsame⟩ := eq_of_unescape h.meant (by simp)
    have hblank := hspaced.mp hsame c hc
    refine ⟨h.legal c hc, fun hm => ?_⟩
    rcases List.mem_cons.mp hm with rfl | hm
    · exact h.quoted hc
    rcases List.mem_cons.mp hm with rfl | hm
    · exact h.tagless hc
    rcases List.mem_cons.mp hm with rfl | hm
    · exact hplain (hsame.symm ▸ hc)
    · exact hblank hm
  · intro h
    have hnot {c : Char} (hm : c ∈ markedInQuotes) : c ∉ raw := fun hc => (h c hc).2 hm
    have hblank : ∀ c ∈ raw, c ∉ ['\t', '\n', '\r'] := fun c hc hm =>
      (h c hc).2 (List.mem_cons_of_mem _ (List.mem_cons_of_mem _ (List.mem_cons_of_mem _ hm)))
    refine ⟨fun c hc => (h c hc).1, hnot (by decide), hnot (by decide), ?_, fun c hc => (h c hc).1⟩
    rw [hspaced.mpr hblank, unescape_eq_self (hnot (by decide))]

end Values

section Names

variable {name : List Char}

theorem isNamePart_of_mem (h : isName name = true) {c : Char} (hc : c ∈ name) :
    isNamePart c = true := by
  cases name with
  | nil => cases hc
  | cons first rest =>
    obtain ⟨hfirst, hrest⟩ := Bool.and_eq_true_iff.mp h
    rcases List.mem_cons.mp hc with rfl | hc
    · simp [isNamePart, hfirst]
    · exact List.all_eq_true.mp hrest c hc

theorem tagless_of_isName (h : isName name = true) : '<' ∉ name := fun hm =>
  absurd (isNamePart_of_mem h hm) (by decide)

theorem isSpace_of_isNamePart {c : Char} (h : isNamePart c = true) : isSpace c = false := by
  rw [← Bool.not_eq_true]
  intro hspace
  simp only [isSpace, Bool.or_eq_true, decide_eq_true_eq] at hspace
  rcases hspace with ((rfl | rfl) | rfl) | rfl <;> exact absurd h (by decide)

end Names

section Blanks

variable {blanks front back : List Char}

/-- Blanks in front of something that does not start with one are none. -/
theorem blanks_eq_nil {c : Char} (hblank : ∀ d ∈ blanks, isSpace d = true) (hc : isSpace c = false)
    (h : blanks ++ front = c :: back) : blanks = [] := by
  cases blanks with
  | nil => rfl
  | cons d blanks =>
    obtain rfl : d = c := (List.cons.inj h).1
    exact absurd (hblank d List.mem_cons_self) (by simp [hc])

/-- Blanks at the end of something that does not end in one are none. -/
theorem blanks_eq_nil_of_concat {c : Char} (hblank : ∀ d ∈ blanks, isSpace d = true)
    (hc : isSpace c = false) (h : front ++ blanks = back ++ [c]) : blanks = [] := by
  rcases List.eq_nil_or_concat' blanks with hnil | ⟨others, d, rfl⟩
  · exact hnil
  · rw [← List.append_assoc] at h
    obtain rfl : d = c := (List.append_singleton_inj.mp h).2
    exact absurd (hblank d (by simp)) (by simp [hc])

theorem tagless_append_inj {front' back' : List Char} (hfront : '<' ∉ front) (hfront' : '<' ∉ front')
    (h : front ++ '<' :: back = front' ++ '<' :: back') : front = front' ∧ back = back' := by
  induction front generalizing front' with
  | nil =>
    cases front' with
    | nil => exact ⟨rfl, (List.cons.inj h).2⟩
    | cons c front' => exact absurd ((List.cons.inj h).1 ▸ List.mem_cons_self) hfront'
  | cons c front ih =>
    cases front' with
    | nil => exact absurd ((List.cons.inj h).1 ▸ List.mem_cons_self) hfront
    | cons d front' =>
      obtain ⟨rfl, htail⟩ := List.cons.inj h
      obtain ⟨rfl, hback⟩ := ih (fun hm => hfront (List.mem_cons_of_mem _ hm))
        (fun hm => hfront' (List.mem_cons_of_mem _ hm)) htail
      exact ⟨rfl, hback⟩

end Blanks

/-- What is written inside an element without attributes, with its tags. -/
def tagged (name : String) (inside : List Char) : List Char :=
  '<' :: (name.toList ++ '>' :: (inside ++ '<' :: '/' :: (name.toList ++ ['>'])))

theorem tagged_append (name : String) (inside rest : List Char) :
    tagged name inside ++ rest =
      '<' :: (name.toList ++ '>' :: (inside ++ '<' :: '/' :: (name.toList ++ '>' :: rest))) := by
  simp [tagged]

theorem getLast?_tagged (name : String) (inside : List Char) :
    (tagged name inside).getLast? = some '>' := by
  simp [tagged, List.getLast?_append, List.getLast?_cons]

section Reading

variable {name : String} {nodes children : List Node} {raw content inside rest chars : List Char}

theorem reads_nil_iff : Reads [] chars ↔ chars = [] := by
  constructor
  · intro h
    cases h
    rfl
  · rintro rfl
    exact .nil

/-- A text alone is read as one text. -/
theorem reads_text_iff : Reads [.text content] chars ↔ IsCharacterData chars content := by
  constructor
  · intro h
    cases h with
    | text meant _ next =>
      rw [reads_nil_iff.mp next, List.append_nil]
      exact meant
  · intro h
    have hreads : Reads [.text content] (chars ++ []) := .text h (by simp) .nil
    rwa [List.append_nil] at hreads

/-- A text ends at the next tag. -/
theorem reads_text_cons_iff (hraw : '<' ∉ raw) (hrest : rest.head? = some '<') :
    Reads (.text content :: nodes) (raw ++ rest) ↔
      IsCharacterData raw content ∧ Reads nodes rest := by
  obtain ⟨tail, rfl⟩ := List.head?_eq_some_iff.mp hrest
  constructor
  · intro h
    generalize hchars : raw ++ '<' :: tail = chars at h
    cases h with
    | @text found _ behind _ meant stops next =>
      cases behind with
      | nil =>
        rw [List.append_nil] at hchars
        exact absurd (hchars ▸ by simp) meant.tagless
      | cons c behind =>
        obtain rfl : c = '<' := stops c rfl
        obtain ⟨rfl, rfl⟩ := tagless_append_inj hraw meant.tagless hchars
        exact ⟨meant, next⟩
  · rintro ⟨meant, next⟩
    exact .text meant (by simp) next

/-- An element without attributes goes on up to a tag with its name. -/
theorem reads_element_iff (hname : isName name.toList = true) :
    Reads (.element name [] children :: nodes) ('<' :: (name.toList ++ '>' :: chars)) ↔
      ∃ inside blanks rest, chars = inside ++ '<' :: '/' :: (name.toList ++ (blanks ++ '>' :: rest)) ∧
        (∀ c ∈ blanks, isSpace c = true) ∧ Reads children inside ∧ Reads nodes rest := by
  constructor
  · intro h
    generalize htag : '<' :: (name.toList ++ '>' :: chars) = written at h
    cases h with
    | element start within blank next =>
      obtain ⟨-, row_written, -, gap_blank⟩ := start
      cases row_written
      have htail := (List.cons.inj htag).2
      rw [List.nil_append, List.append_assoc] at htail
      have htail := List.append_cancel_left htail
      obtain rfl := blanks_eq_nil gap_blank (by decide) htail.symm
      exact ⟨_, _, _, (List.cons.inj htail).2, blank, within, next⟩
  · rintro ⟨inside, blanks, rest, rfl, blank, within, next⟩
    have hempty : ∀ c ∈ ([] : List Char), isSpace c = true := by simp
    simpa using Reads.element (.intro hname .nil .nil hempty) within blank next

/-- An element that holds only text. -/
theorem reads_leaf_iff (hname : isName name.toList = true) (hraw : '<' ∉ raw) :
    Reads (.element name [] [.text content] :: nodes) (tagged name raw ++ rest) ↔
      IsCharacterData raw content ∧ Reads nodes rest := by
  rw [tagged_append, reads_element_iff hname]
  constructor
  · rintro ⟨inside, blanks, behind, hchars, blank, within, next⟩
    have meant := reads_text_iff.mp within
    obtain ⟨rfl, hend⟩ := tagless_append_inj hraw meant.tagless hchars
    have hend := List.append_cancel_left (List.cons.inj hend).2
    obtain rfl := blanks_eq_nil blank (by decide) hend.symm
    obtain rfl := (List.cons.inj hend).2
    exact ⟨meant, next⟩
  · rintro ⟨meant, next⟩
    exact ⟨raw, [], rest, by simp, by simp, reads_text_iff.mpr meant, next⟩

/-- An element that is all there is. -/
theorem reads_whole_iff (hname : isName name.toList = true) :
    Reads [.element name [] children] (tagged name inside) ↔ Reads children inside := by
  rw [tagged, reads_element_iff hname]
  constructor
  · rintro ⟨found, blanks, rest, hchars, blank, within, next⟩
    obtain rfl := reads_nil_iff.mp next
    -- the name ends in a character other than a blank
    have hne : name.toList ≠ [] := fun hnil => by simp [hnil, isName] at hname
    obtain ⟨front, c, hlast⟩ := (List.eq_nil_or_concat' name.toList).resolve_left hne
    have hc : isSpace c = false :=
      isSpace_of_isNamePart (isNamePart_of_mem hname (by simp [hlast]))
    rw [hlast] at hchars
    have hchars : (inside ++ '<' :: '/' :: front) ++ [c] ++ ['>'] =
        ((found ++ '<' :: '/' :: (front ++ [c])) ++ blanks) ++ ['>'] := by simpa using hchars
    have hchars := List.append_cancel_right hchars
    obtain rfl := blanks_eq_nil_of_concat blank hc hchars.symm
    have hinside : inside ++ '<' :: '/' :: (front ++ [c]) =
        found ++ '<' :: '/' :: (front ++ [c]) := by simpa using hchars
    exact List.append_cancel_right hinside ▸ within
  · exact fun within => ⟨inside, [], [], by simp, by simp, within, .nil⟩

/-- A tag with one attribute in double quotes, behind one space. -/
theorem isTag_iff {key value : String} (hname : isName name.toList = true)
    (hkey : isName key.toList = true) :
    IsTag name [(key, value)]
        (name.toList ++ ' ' :: (key.toList ++ '=' :: '"' :: (raw ++ ['"']))) ↔
      IsAttributeValue '"' raw value.toList := by
  constructor
  · intro h
    generalize htag : name.toList ++ ' ' :: (key.toList ++ '=' :: '"' :: (raw ++ ['"'])) = tag at h
    cases h with
    | @intro row blanks _ row_written _ end_blank =>
      have htag := List.append_cancel_left htag
      cases row_written with
      | @cons _ _ gap before after found _ quote _ gap_ne blank _ quotes meant next =>
        cases next
        simp only [List.forall_mem_append] at blank
        obtain ⟨⟨hgap, hbefore⟩, hafter⟩ := blank
        obtain ⟨space, gap, rfl⟩ := List.exists_cons_of_ne_nil gap_ne
        simp only [List.cons_append, List.append_assoc] at htag
        have htag := (List.cons.inj htag).2
        -- the blanks around the key are none, since neither it nor what follows starts with one
        obtain ⟨first, others, hfirst⟩ : ∃ first others, key.toList = first :: others :=
          List.exists_cons_of_ne_nil fun hnil => by simp [hnil, isName] at hkey
        have hspace : isSpace first = false :=
          isSpace_of_isNamePart (isNamePart_of_mem hkey (by simp [hfirst]))
        have hgap : gap = [] := blanks_eq_nil (fun c hc => hgap c (List.mem_cons_of_mem _ hc)) hspace
          (by rw [← htag, hfirst, List.cons_append])
        subst hgap
        have htag := List.append_cancel_left htag
        obtain rfl := blanks_eq_nil hbefore (by decide) htag.symm
        have htag := (List.cons.inj htag).2
        obtain rfl := blanks_eq_nil hafter (by decide) htag.symm
        obtain ⟨rfl, htag⟩ := List.cons.inj htag
        have hend : (found ++ ['"']) ++ blanks = raw ++ ['"'] := by simpa using htag.symm
        obtain rfl := blanks_eq_nil_of_concat end_blank (by decide) hend
        obtain rfl : raw = found := by simpa using htag
        exact meant
  · intro meant
    have hspace : ∀ c ∈ [' '] ++ [] ++ [], isSpace c = true := by decide
    have hempty : ∀ c ∈ ([] : List Char), isSpace c = true := by simp
    have hrow := AreAttributes.cons (by simp) hspace hkey (.inl rfl) meant .nil
    simpa using IsTag.intro hname hrow (by simp) hempty

/-- An empty element that is all there is. -/
theorem reads_empty_iff {attributes : List (String × String)} {tag : List Char} :
    Reads [.empty name attributes] ('<' :: (tag ++ ['/', '>'])) ↔ IsTag name attributes tag := by
  constructor
  · intro h
    generalize hwritten : '<' :: (tag ++ ['/', '>']) = written at h
    cases h with
    | empty start next =>
      obtain rfl := reads_nil_iff.mp next
      exact List.append_cancel_right (List.cons.inj hwritten).2 ▸ start
  · exact fun start => .empty start .nil

end Reading

namespace Node

mutual

/-- The number of brackets that open a tag, in a part of a document. -/
def brackets : Node → Nat
  | element _ _ children => 2 + bracketsOf children
  | empty _ _ => 1
  | text _ | characters _ | comment => 0

/-- The number of brackets that open a tag, in several parts of a document. -/
def bracketsOf : List Node → Nat
  | [] => 0
  | node :: nodes => node.brackets + bracketsOf nodes

end

end Node

section Brackets

variable {name : String} {attributes : List (String × String)} {nodes : List Node}
  {row tag blanks chars : List Char}

private theorem tagless_of_blank (h : ∀ c ∈ blanks, isSpace c = true) : '<' ∉ blanks := fun hm =>
  absurd (h _ hm) (by decide)

private theorem AreAttributes.tagless (h : AreAttributes attributes row) : '<' ∉ row := by
  induction h with
  | nil => simp
  | @cons _ _ _ _ _ _ _ quote _ _ blank named quotes meant _ ih =>
    have hquote : '<' ≠ quote := by
      rintro rfl
      exact absurd quotes (by decide)
    have hblank := tagless_of_blank blank
    simp only [List.mem_append, not_or] at hblank
    simp [hblank, tagless_of_isName named, hquote, meant.tagless, ih]

private theorem IsTag.tagless (h : IsTag name attributes tag) : '<' ∉ tag := by
  obtain ⟨named, row_written, -, blank⟩ := h
  simp [tagless_of_isName named, row_written.tagless, tagless_of_blank blank]

/-- In what is read there are no brackets but those that open tags. -/
theorem count_of_reads (h : Reads nodes chars) : chars.count '<' = Node.bracketsOf nodes := by
  induction h with
  | nil => rfl
  | text meant _ _ ih =>
    simp [Node.bracketsOf, Node.brackets, ih, List.count_eq_zero.mpr meant.tagless]
  | @element name _ _ _ tag _ blanks _ start _ blank _ ih_within ih =>
    have hname : '<' ∉ name.toList := by
      obtain ⟨named, -, -, -⟩ := start
      exact tagless_of_isName named
    simp [Node.bracketsOf, Node.brackets, ih, ih_within,
      List.count_eq_zero.mpr start.tagless, List.count_eq_zero.mpr hname,
      List.count_eq_zero.mpr (tagless_of_blank blank)]
    omega
  | empty start _ ih =>
    simp [Node.bracketsOf, Node.brackets, ih, List.count_eq_zero.mpr start.tagless]
    omega

end Brackets

end SourceGen.Xml
