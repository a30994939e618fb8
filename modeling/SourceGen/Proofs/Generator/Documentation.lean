import SourceGen.Generator.Endpoints
import SourceGen.Generator.Resource
import SourceGen.Proofs.Syntax.Members
import SourceGen.Proofs.Syntax.Signature
import SourceGen.Proofs.Text.LineEnds
import SourceGen.Proofs.Xml.Fragment

/-! The documentation of members that are made of files. It holds texts of the files, and is read as
XML that gives these back, if they are escaped as the place where they stand asks for. -/

namespace SourceGen

namespace Tree

/-- The documentation of a declaration: its lines without the slashes and the space in front, as XML
is read. -/
def documentation (tree : Tree) : List Char :=
  Xml.readLines <| ['\n'].intercalate <|
    ((leavesOf (tree.parts [.leadingTrivia])).filter (·.kind == .docComment)).map
      fun token => token.text.toList.drop 4

end Tree

namespace Trivia

@[simp] theorem ofKinds_trees (kinds : List Kind) (trivia : Trivia) :
    Tree.ofKinds kinds trivia.trees = if .leadingTrivia ∈ kinds then trivia.trees else [] := by
  unfold trees
  split
  · simp
  · exact Tree.ofKinds_cons _ []

/-- Documentation that is added line by line is that of the lines together. -/
theorem doc_doc (trivia : Trivia) (front back : String) :
    (trivia.doc front).doc back = trivia.doc (front ++ "\n" ++ back) := by
  have hsplit : Text.splitChars '\n' (front ++ "\n" ++ back).toList =
      Text.splitChars '\n' front.toList ++ Text.splitChars '\n' back.toList := by
    rw [← Text.splitChars_append]
    simp
  rw [doc, doc, doc, hsplit, List.map_append, List.append_assoc]

theorem leavesOf_trees (trivia : Trivia) : Tree.leavesOf trivia.trees = trivia.lines := by
  unfold trees
  split
  · next hempty => exact (List.isEmpty_iff.mp hempty).symm
  · simp [toTree, Tree.plain, Tree.leavesOf, Tree.leaves, Tree.leavesOf_leaf]

/-- What is documented by a text is this text, with a line feed for each line end. -/
theorem documentation_doc {tree : Tree} {text : String}
    (h : tree.parts [.leadingTrivia] = (doc {} text).trees)
    (hlast : text.toList.getLast? ≠ some '\r') :
    tree.documentation = Text.lineFeeds text.toList := by
  have hkept : (doc {} text).lines.filter (·.kind == .docComment) =
      (Text.splitChars '\n' text.toList).map docLine := by
    simp [doc, List.filter_map, Function.comp_def, docLine]
  have hlines : ((Text.splitChars '\n' text.toList).map docLine).map
      (fun token => token.text.toList.drop 4) =
      (Text.splitChars '\n' text.toList).map (Text.dropWhileEnd (· = '\r')) := by
    simp [docLine]
  rw [Tree.documentation, h, leavesOf_trees, hkept, hlines,
    Text.readLines_splitChars text.toList hlast]

end Trivia

private theorem ofKinds_leadingTrivia {declaration : Declaration} {name : String}
    (h : declaration.name? = some name) : Tree.ofKinds [.leadingTrivia] declaration.trees = [] := by
  cases declaration with
  | type | enumeration | computed => simp [Declaration.trees, arrowTree]
  | property _ _ _ initializer =>
    cases initializer <;> simp [Declaration.trees, Accessor.listTree, equalsValueTree]
  | constructor _ _ arguments body =>
    cases arguments <;> cases body <;>
      simp [Declaration.trees, Body.trees, blockTree, arrowTree, baseCallTree]
  | method _ _ _ _ body =>
    cases body <;> simp [Declaration.trees, Body.trees, blockTree, arrowTree]
  | field | indexer | operator | conversion => cases h

private theorem ofKinds_attributes (groups : List AttributeGroup) :
    Tree.ofKinds [.leadingTrivia] (groups.map AttributeGroup.toTree) = [] := by
  refine Tree.ofKinds_eq_nil fun tree hm => ?_
  obtain ⟨group, -, rfl⟩ := List.mem_map.mp hm
  simp [AttributeGroup.toTree]

theorem Member.parts_leadingTrivia (header : Header) {declaration : Declaration} {name : String}
    (h : declaration.name? = some name) :
    (declare header declaration).toTree.parts [.leadingTrivia] = header.trivia.trees := by
  rw [toTree, Tree.parts, Tree.children, Header.trees]
  simp [ofKinds_attributes, ofKinds_leadingTrivia h, Modifier.tree]

theorem EnumMember.parts_leadingTrivia (member : EnumMember) :
    member.toTree.parts [.leadingTrivia] = member.trivia.trees := by
  have hvalue : Tree.ofKinds [.leadingTrivia] (valueTrees member.value) = [] := by
    cases member.value <;> simp [valueTrees, equalsValueTree]
  rw [toTree, Tree.plain, Tree.parts, Tree.children]
  simp [ofKinds_attributes, hvalue]

namespace Text

/-- A character of an address as it is written in the documentation. -/
def ampersandChar (c : Char) : List Char :=
  if c = '&' then "&amp;".toList else [c]

theorem ampersands_eq (text : String) :
    ampersands text = String.ofList (text.toList.flatMap ampersandChar) :=
  rfl

section Characters

variable {c d : Char}

theorem ne_bracket_of_mem_markupChar (h : d ∈ markupChar c) : d ≠ '<' ∧ d ≠ '>' := by
  unfold markupChar at h
  split at h
  case h_4 _ _ hlt hgt =>
    obtain rfl := List.mem_singleton.mp h
    exact ⟨hlt, hgt⟩
  all_goals
    revert d
    decide

theorem isLegal_of_mem_markupChar (hc : Xml.isLegal c = true) (h : d ∈ markupChar c) :
    Xml.isLegal d = true := by
  unfold markupChar at h
  split at h
  case h_4 =>
    obtain rfl := List.mem_singleton.mp h
    exact hc
  all_goals
    revert d
    decide

theorem mem_ampersandChar (h : d ∈ ampersandChar c) : d = c ∨ d ∈ "&amp;".toList := by
  unfold ampersandChar at h
  split at h
  · exact .inr h
  · exact .inl (List.mem_singleton.mp h)

theorem bracket_mem_ampersands {text : List Char} (h : '<' ∈ text.flatMap ampersandChar) :
    '<' ∈ text := by
  obtain ⟨c, hc, hd⟩ := List.mem_flatMap.mp h
  rcases mem_ampersandChar hd with rfl | hd
  · exact hc
  · exact absurd hd (by decide)

theorem keepsLines_markupChar : KeepsLines markupChar where
  carriageReturn := rfl
  lineFeed := rfl
  other c hr hn := by
    unfold markupChar
    split <;> simp [hr, hn]

theorem keepsLines_ampersandChar : KeepsLines ampersandChar where
  carriageReturn := rfl
  lineFeed := rfl
  other c hr hn := by
    unfold ampersandChar
    split <;> simp [hr, hn]

end Characters

section Infixes

variable {pattern front back : List Char}

/-- Characters that are not in a pattern do not belong to an occurrence of it. -/
theorem infix_append_iff (hfront : ∀ c ∈ front, c ∉ pattern) (hne : pattern ≠ []) :
    pattern <:+: front ++ back ↔ pattern <:+: back := by
  induction front with
  | nil => rfl
  | cons c front ih =>
    obtain ⟨hc, hfront⟩ := List.forall_mem_cons.mp hfront
    have hbegins : ¬pattern <+: c :: (front ++ back) := by
      intro hbegins
      obtain ⟨p, tail, rfl⟩ := List.exists_cons_of_ne_nil hne
      exact hc ((List.cons_prefix_cons.mp hbegins).1 ▸ List.mem_cons_self)
    rw [List.cons_append, List.infix_cons_iff, or_iff_right hbegins, ih hfront]

private theorem prefix_ampersands_iff (hpattern : ∀ c ∈ pattern, c ≠ '&') {text : List Char} :
    pattern <+: text.flatMap ampersandChar ↔ pattern <+: text := by
  induction pattern generalizing text with
  | nil => simp
  | cons p pattern ih =>
    obtain ⟨hp, hpattern⟩ := List.forall_mem_cons.mp hpattern
    cases text with
    | nil => rfl
    | cons c text =>
      rw [List.flatMap_cons, ampersandChar]
      split
      · next hc => simp [hc, hp, List.cons_prefix_cons]
      · rw [List.singleton_append, List.cons_prefix_cons, List.cons_prefix_cons, ih hpattern]

/-- What has nothing of an escaped ampersand occurs in a text no matter how ampersands are
written. -/
theorem infix_ampersands_iff (hpattern : ∀ c ∈ pattern, c ∉ "&amp;".toList) (hne : pattern ≠ [])
    {text : List Char} : pattern <:+: text.flatMap ampersandChar ↔ pattern <:+: text := by
  have hamp : ∀ c ∈ pattern, c ≠ '&' := fun c hc heq => hpattern c hc (heq ▸ by decide)
  induction text with
  | nil => rfl
  | cons c text ih =>
    by_cases hc : c = '&'
    · have hescape : ∀ d ∈ ampersandChar '&', d ∉ pattern := fun d hd hm => hpattern d hm hd
      have hself : ∀ d ∈ ['&'], d ∉ pattern := fun d hd hm => hamp d hm (List.mem_singleton.mp hd)
      have hcons : pattern <:+: '&' :: text ↔ pattern <:+: text := infix_append_iff hself hne
      rw [hc, List.flatMap_cons, hcons]
      exact (infix_append_iff hescape hne).trans ih
    · have hbegins : pattern <+: (c :: text).flatMap ampersandChar ↔ pattern <+: c :: text :=
        prefix_ampersands_iff hamp
      rw [List.flatMap_cons, ampersandChar, if_neg hc, List.singleton_append] at hbegins ⊢
      rw [List.infix_cons_iff, List.infix_cons_iff, hbegins]
      exact or_congr_right ih

end Infixes

end Text

namespace Xml

theorem unescape_markup (text : List Char) :
    unescape (text.flatMap Text.markupChar) = some text := by
  refine unescape_flatMap (fun c rest => ?_) text
  unfold Text.markupChar
  split
  · rfl
  · rfl
  · rfl
  · next hamp _ _ => exact unescape_cons hamp rest

theorem unescape_ampersands (text : List Char) :
    unescape (text.flatMap Text.ampersandChar) = some text := by
  refine unescape_flatMap (fun c rest => ?_) text
  unfold Text.ampersandChar
  split
  · next hamp => exact hamp ▸ rfl
  · next hamp => exact unescape_cons hamp rest

/-- An escaped text is read as itself if all of its characters are legal. -/
theorem isCharacterData_markup_iff {raw text : List Char} :
    IsCharacterData (raw.flatMap Text.markupChar) text ↔
      raw = text ∧ ∀ c ∈ text, isLegal c = true := by
  constructor
  · intro h
    exact ⟨Option.some.inj ((unescape_markup raw).symm.trans h.meant), h.legal_content⟩
  · rintro ⟨rfl, h⟩
    refine ⟨?_, ?_, ?_, unescape_markup raw, h⟩
    · intro d hd
      obtain ⟨c, hc, hd⟩ := List.mem_flatMap.mp hd
      exact Text.isLegal_of_mem_markupChar (h c hc) hd
    · intro hm
      obtain ⟨c, -, hd⟩ := List.mem_flatMap.mp hm
      exact (Text.ne_bracket_of_mem_markupChar hd).1 rfl
    · intro hwithin
      obtain ⟨c, -, hd⟩ := List.mem_flatMap.mp (hwithin.subset (a := '>') (by decide))
      exact (Text.ne_bracket_of_mem_markupChar hd).2 rfl

/-- A text with escaped ampersands is read as itself if nothing else in it is markup. -/
theorem isCharacterData_ampersands_iff {raw text : List Char} :
    IsCharacterData (raw.flatMap Text.ampersandChar) text ↔
      (raw = text ∧ ∀ c ∈ text, isLegal c = true) ∧ '<' ∉ text ∧ ¬"]]>".toList <:+: text := by
  have hwithin : "]]>".toList <:+: raw.flatMap Text.ampersandChar ↔ "]]>".toList <:+: raw :=
    Text.infix_ampersands_iff (by decide) (by simp)
  constructor
  · intro h
    obtain rfl : raw = text := Option.some.inj ((unescape_ampersands raw).symm.trans h.meant)
    refine ⟨⟨rfl, h.legal_content⟩, fun hm => ?_, hwithin.not.mp h.unclosed⟩
    exact h.tagless (List.mem_flatMap.mpr ⟨'<', hm, by decide⟩)
  · rintro ⟨⟨rfl, hlegal⟩, htagless, hunclosed⟩
    refine ⟨fun d hd => ?_, fun hm => ?_, hwithin.not.mpr hunclosed, unescape_ampersands raw, hlegal⟩
    · obtain ⟨c, hc, hd⟩ := List.mem_flatMap.mp hd
      rcases Text.mem_ampersandChar hd with rfl | hd
      · exact hlegal d hc
      · exact (show ∀ d ∈ "&amp;".toList, isLegal d = true by decide) d hd
    · exact htagless (Text.bracket_mem_ampersands hm)

theorem isCharacterData_lineFeed : IsCharacterData ['\n'] ['\n'] :=
  have h : ∀ c ∈ ['\n'], isLegal c = true := by decide
  isCharacterData_markup_iff.mpr ⟨rfl, h⟩

/-- An attribute is read as the text that is written for it, if none of its characters stands for
something else. -/
theorem isAttributeValue_lineFeeds_iff {text : List Char} :
    IsAttributeValue '"' (Text.lineFeeds text) text ↔
      ∀ c ∈ text, isLegal c = true ∧ c ∉ markedInQuotes := by
  have hsame (hr : '\r' ∉ text) : IsAttributeValue '"' (Text.lineFeeds text) text ↔
      ∀ c ∈ text, isLegal c = true ∧ c ∉ markedInQuotes := by
    rw [Text.lineFeeds_eq_self_iff.mpr hr, isAttributeValue_self_iff]
  constructor
  · intro h
    refine (hsame fun hm => ?_).mp h
    -- no character is read as a carriage return
    obtain ⟨-, hmeant⟩ := eq_of_unescape h.meant (by simpa using Text.length_lineFeeds_le)
    rw [← hmeant] at hm
    obtain ⟨c, -, hc⟩ := List.mem_map.mp hm
    unfold spaced at hc
    split at hc
    · exact absurd hc (by decide)
    · next hspace => exact hspace (hc ▸ by decide)
  · intro h
    exact (hsame fun hm => (h _ hm).2 (by decide)).mpr h

theorem lineFeeds_and_legal_iff {text : String} :
    (Text.lineFeeds text.toList = text.toList ∧ ∀ c ∈ text.toList, isLegal c = true) ↔
      IsKept text := by
  rw [Text.lineFeeds_eq_self_iff]
  exact ⟨fun ⟨hr, hlegal⟩ c hc => ⟨hlegal c hc, fun heq => hr (heq ▸ hc)⟩,
    fun h => ⟨fun hr => (h _ hr).2 rfl, fun c hc => (h c hc).1⟩⟩

theorem lineFeeds_tagged {name : String} (h : '\r' ∉ name.toList) (inside rest : List Char) :
    Text.lineFeeds (tagged name inside ++ rest) =
      tagged name (Text.lineFeeds inside) ++ Text.lineFeeds rest := by
  have hclosing : Text.lineFeeds ('<' :: '/' :: (name.toList ++ '>' :: rest)) =
      '<' :: '/' :: (name.toList ++ '>' :: Text.lineFeeds rest) := by
    rw [Text.lineFeeds_cons (by decide), Text.lineFeeds_cons (by decide),
      Text.lineFeeds_append_left h, Text.lineFeeds_cons (by decide)]
  rw [tagged_append, tagged_append, Text.lineFeeds_cons (by decide),
    Text.lineFeeds_append_left h, Text.lineFeeds_cons (by decide),
    Text.lineFeeds_append (by simp), hclosing]

end Xml

namespace ResourceEntry

/-- What the documentation of an entry says, with the names of the elements. A blank comment is left
out. -/
def lines (entry : ResourceEntry) : List (String × String) :=
  ("para", "Looks up a localized string for \"" ++ entry.name ++ "\".") ::
    ((entry.comment.filter fun comment => !(Text.trim comment).isEmpty).toList.map ("para", ·) ++
      entry.values.map fun value =>
        ("code", padded value.locale ++ " Value: \"" ++ value.value.getD "" ++ "\""))

/-- What is written for an element. -/
def writtenLine (line : String × String) : List Char :=
  Xml.tagged line.1 (line.2.toList.flatMap Text.markupChar)

/-- What an element is meant to hold. -/
def lineNode (line : String × String) : Xml.Node :=
  .element line.1 [] [.text line.2.toList]

/-- The documentation of an entry as it is meant. -/
def summaryNode (entry : ResourceEntry) : Xml.Node :=
  .element "summary" [] (entry.lines.map lineNode)

/-- The documentation of the method for an entry as it is meant. -/
def referenceNode (entry : ResourceEntry) : Xml.Node :=
  .empty "inheritdoc" [("cref", entry.name)]

section Lines

variable {lines : List (String × String)}

private theorem lineFeeds_lines (h : ∀ line ∈ lines, '\r' ∉ line.1.toList) :
    Text.lineFeeds (lines.flatMap writtenLine) =
      lines.flatMap fun line =>
        Xml.tagged line.1 ((Text.lineFeeds line.2.toList).flatMap Text.markupChar) := by
  induction lines with
  | nil => rfl
  | cons line lines ih =>
    obtain ⟨hline, hlines⟩ := List.forall_mem_cons.mp h
    rw [List.flatMap_cons, List.flatMap_cons, writtenLine, Xml.lineFeeds_tagged hline,
      Text.lineFeeds_flatMap Text.keepsLines_markupChar, ih hlines]

/-- Elements with texts that are escaped are read as they are meant if the texts are kept. -/
private theorem reads_lines_iff (h : ∀ line ∈ lines, Xml.isName line.1.toList = true) :
    Xml.Reads (lines.map lineNode) (lines.flatMap fun line =>
        Xml.tagged line.1 ((Text.lineFeeds line.2.toList).flatMap Text.markupChar)) ↔
      ∀ line ∈ lines, Xml.IsKept line.2 := by
  induction lines with
  | nil => simp [Xml.reads_nil_iff]
  | cons line lines ih =>
    obtain ⟨hline, hlines⟩ := List.forall_mem_cons.mp h
    have htagless : '<' ∉ (Text.lineFeeds line.2.toList).flatMap Text.markupChar := by
      intro hm
      obtain ⟨c, -, hd⟩ := List.mem_flatMap.mp hm
      exact (Text.ne_bracket_of_mem_markupChar hd).1 rfl
    rw [List.map_cons, lineNode, List.flatMap_cons, Xml.reads_leaf_iff hline htagless, ih hlines,
      Xml.isCharacterData_markup_iff, Xml.lineFeeds_and_legal_iff, List.forall_mem_cons]

end Lines

private theorem name_of_mem_lines {entry : ResourceEntry} {line : String × String}
    (h : line ∈ entry.lines) : line.1 = "para" ∨ line.1 = "code" := by
  simp only [lines, List.mem_cons, List.mem_append, List.mem_map] at h
  rcases h with rfl | ⟨_, -, rfl⟩ | ⟨_, -, rfl⟩
  · exact .inl rfl
  · exact .inl rfl
  · exact .inr rfl

private theorem toList_join (parts : List String) :
    (Text.join "" parts).toList = parts.flatMap String.toList := by
  induction parts with
  | nil => rfl
  | cons part parts ih =>
    by_cases h : parts = []
    · simp [h, Text.join]
    · rw [Text.join, String.intercalate_cons_of_ne_nil h, List.flatMap_cons, ← ih]
      simp [Text.join]

private theorem toList_valueLine (value : ResourceValue) :
    (valueLine value).toList =
      writtenLine ("code", padded value.locale ++ " Value: \"" ++ value.value.getD "" ++ "\"") := by
  simp [valueLine, writtenLine, Xml.tagged, Text.markup]

private theorem toList_commentLine (entry : ResourceEntry) :
    entry.commentLine.toList =
      ((entry.comment.filter fun comment => !(Text.trim comment).isEmpty).toList.map
        ("para", ·)).flatMap writtenLine := by
  unfold commentLine
  split
  · next comment heq =>
    rw [heq, Option.filter_some]
    split <;> simp_all [writtenLine, Xml.tagged, Text.markup]
  · next heq => simp [heq]

private theorem documentation_eq (entry : ResourceEntry) :
    entry.documentation = Trivia.doc {} (String.ofList (Xml.tagged "summary"
      (entry.lines.flatMap writtenLine))) := by
  have hname : ("<para>Looks up a localized string for \"" ++ Text.markup entry.name ++
      "\".</para>").toList =
      writtenLine ("para", "Looks up a localized string for \"" ++ entry.name ++ "\".") := by
    -- nothing in the text around the name is escaped
    have hfront : "Looks up a localized string for \"".toList.flatMap Text.markupChar =
        "Looks up a localized string for \"".toList := rfl
    have hback : "\".".toList.flatMap Text.markupChar = "\".".toList := rfl
    rw [writtenLine, Xml.tagged, Text.markup, String.toList_append, String.toList_append,
      String.toList_append, String.toList_append, String.toList_ofList, List.flatMap_append,
      List.flatMap_append, hfront, hback]
    simp
  have hvalues : (Text.join "" (entry.values.map valueLine)).toList =
      (entry.values.map fun value =>
        ("code", padded value.locale ++ " Value: \"" ++ value.value.getD "" ++ "\"")).flatMap
        writtenLine := by
    rw [toList_join, List.flatMap_map, List.flatMap_map]
    exact List.flatMap_congr fun value _ => toList_valueLine value
  refine congrArg (Trivia.doc {}) ?_
  rw [← String.toList_inj, String.toList_ofList, lines, List.flatMap_cons, List.flatMap_append,
    ← hname, ← toList_commentLine, ← hvalues]
  simp [Xml.tagged]

/-- Documentation that says what an entry holds is read as it is meant if the texts are kept. -/
theorem reads_documentation_iff {entry : ResourceEntry} {tree : Tree}
    (h : tree.parts [.leadingTrivia] = entry.documentation.trees) :
    Xml.Reads [entry.summaryNode] tree.documentation ↔
      ∀ line ∈ entry.lines, Xml.IsKept line.2 := by
  have hreturn : ∀ line ∈ entry.lines, '\r' ∉ line.1.toList := fun line hm => by
    rcases name_of_mem_lines hm with hname | hname <;> rw [hname] <;> decide
  have hnames : ∀ line ∈ entry.lines, Xml.isName line.1.toList = true := fun line hm => by
    rcases name_of_mem_lines hm with hname | hname <;> rw [hname] <;> decide
  have hfeeds := Xml.lineFeeds_tagged (show '\r' ∉ "summary".toList by decide)
    (entry.lines.flatMap writtenLine) []
  rw [List.append_nil, Text.lineFeeds_nil, List.append_nil] at hfeeds
  rw [documentation_eq] at h
  rw [Trivia.documentation_doc h (by simp [Xml.getLast?_tagged]), String.toList_ofList, hfeeds,
    summaryNode, Xml.reads_whole_iff (by decide), lineFeeds_lines hreturn, reads_lines_iff hnames]

theorem reads_property_iff (entry : ResourceEntry) :
    Xml.Reads [entry.summaryNode] entry.property.toTree.documentation ↔
      ∀ line ∈ entry.lines, Xml.IsKept line.2 :=
  reads_documentation_iff (Member.parts_leadingTrivia _ rfl)

theorem reads_enumMember_iff (entry : ResourceEntry) :
    Xml.Reads [entry.summaryNode] entry.toEnumMember.toTree.documentation ↔
      ∀ line ∈ entry.lines, Xml.IsKept line.2 :=
  reads_documentation_iff (EnumMember.parts_leadingTrivia _)

/-- The name in the documentation of a method is read as it is meant if no character of it stands for
something else in an attribute. -/
theorem reads_formatMethod_iff (entry : ResourceEntry) :
    Xml.Reads [entry.referenceNode] entry.formatMethod.toTree.documentation ↔
      ∀ c ∈ entry.name.toList, Xml.isLegal c = true ∧ c ∉ Xml.markedInQuotes := by
  let text := "<inheritdoc cref=\"" ++ entry.name ++ "\"/>"
  have hparts : entry.formatMethod.toTree.parts [.leadingTrivia] = (Trivia.doc {} text).trees :=
    Member.parts_leadingTrivia _ rfl
  have hfeeds : Text.lineFeeds text.toList =
      '<' :: ("inheritdoc".toList ++ ' ' :: ("cref".toList ++ '=' :: '"' ::
        (Text.lineFeeds entry.name.toList ++ ['"'])) ++ ['/', '>']) := by
    have hend : Text.lineFeeds "\"/>".toList = "\"/>".toList :=
      Text.lineFeeds_eq_self_iff.mpr (by decide)
    rw [String.toList_append, String.toList_append, List.append_assoc,
      Text.lineFeeds_append_left (by decide), Text.lineFeeds_append (by simp), hend]
    simp
  have hlast : text.toList.getLast? = some '>' := by
    simp [text, List.getLast?_append, List.getLast?_cons]
  rw [Trivia.documentation_doc hparts (by simp [hlast]), hfeeds, referenceNode,
    Xml.reads_empty_iff, Xml.isTag_iff (by decide) (by decide), Xml.isAttributeValue_lineFeeds_iff]

end ResourceEntry

namespace Endpoint

/-- What the documentation of an endpoint says, one line for each region. -/
def lines (endpoint : Endpoint) : List String :=
  ["CN: " ++ endpoint.chinese, "OS: " ++ endpoint.oversea]

/-- What is written for a line. -/
def writtenLine (line : String) : List Char :=
  Xml.tagged "code" (line.toList.flatMap Text.ampersandChar) ++ ['\n']

/-- What is meant by a line, with the line feed behind it. -/
def lineNodes (line : String) : List Xml.Node :=
  [.element "code" [] [.text line.toList], .text ['\n']]

/-- The documentation of an endpoint as it is meant. -/
def summaryNode (endpoint : Endpoint) : Xml.Node :=
  .element "summary" [] (.text ['\n'] :: endpoint.lines.flatMap lineNodes)

section Lines

variable {lines : List String}

/-- A line as it is read. -/
private def readLine (line : String) : List Char :=
  (Text.lineFeeds line.toList).flatMap Text.ampersandChar

private theorem lineFeeds_lines :
    Text.lineFeeds (lines.flatMap writtenLine) =
      lines.flatMap fun line => Xml.tagged "code" (readLine line) ++ ['\n'] := by
  induction lines with
  | nil => rfl
  | cons line lines ih =>
    rw [List.flatMap_cons, List.flatMap_cons, writtenLine, List.append_assoc, List.append_assoc,
      Xml.lineFeeds_tagged (by decide), List.singleton_append, Text.lineFeeds_cons (by decide), ih,
      Text.lineFeeds_flatMap Text.keepsLines_ampersandChar]
    rfl

private theorem bracketsOf_lineNodes :
    Xml.Node.bracketsOf (lines.flatMap lineNodes) = 2 * lines.length := by
  induction lines with
  | nil => rfl
  | cons line lines ih =>
    simp only [List.flatMap_cons, lineNodes, List.cons_append, List.nil_append,
      Xml.Node.bracketsOf, Xml.Node.brackets, List.length_cons] at ih ⊢
    omega

private theorem count_lines :
    (lines.flatMap fun line => Xml.tagged "code" (readLine line) ++ ['\n']).count '<' =
      2 * lines.length + (lines.flatMap readLine).count '<' := by
  induction lines with
  | nil => rfl
  | cons line lines ih =>
    have hline : (Xml.tagged "code" (readLine line) ++ ['\n']).count '<' =
        2 + (readLine line).count '<' := by
      simp [Xml.tagged]
      omega
    rw [List.flatMap_cons, List.count_append, hline, ih, List.flatMap_cons, List.count_append,
      List.length_cons]
    omega

/-- If lines are read as they are meant, none of them opens a tag: there would be too many. -/
private theorem tagless_of_reads
    (h : Xml.Reads (.text ['\n'] :: lines.flatMap lineNodes)
      ('\n' :: lines.flatMap fun line => Xml.tagged "code" (readLine line) ++ ['\n'])) :
    ∀ line ∈ lines, '<' ∉ readLine line := by
  have hcount := Xml.count_of_reads h
  rw [List.count_cons_of_ne (by decide), count_lines, Xml.Node.bracketsOf, Xml.Node.brackets,
    bracketsOf_lineNodes] at hcount
  have hnone : (lines.flatMap readLine).count '<' = 0 := by omega
  exact fun line hline hm => List.count_eq_zero.mp hnone (List.mem_flatMap.mpr ⟨line, hline, hm⟩)

/-- Lines that open no tag are read as they are meant if nothing else in them is markup. -/
private theorem reads_lines_iff (h : ∀ line ∈ lines, '<' ∉ readLine line) :
    Xml.Reads (.text ['\n'] :: lines.flatMap lineNodes)
        ('\n' :: lines.flatMap fun line => Xml.tagged "code" (readLine line) ++ ['\n']) ↔
      ∀ line ∈ lines, Xml.IsCharacterData (readLine line) line.toList := by
  induction lines with
  | nil => exact iff_of_true (Xml.reads_text_iff.mpr Xml.isCharacterData_lineFeed) (by simp)
  | cons line lines ih =>
    obtain ⟨hline, hlines⟩ := List.forall_mem_cons.mp h
    rw [List.flatMap_cons, List.flatMap_cons, List.append_assoc]
    show Xml.Reads (.text ['\n'] :: .element "code" [] [.text line.toList] ::
      .text ['\n'] :: lines.flatMap lineNodes)
      (['\n'] ++ (Xml.tagged "code" (readLine line) ++ '\n' :: lines.flatMap fun line =>
        Xml.tagged "code" (readLine line) ++ ['\n'])) ↔ _
    rw [Xml.reads_text_cons_iff (by decide) rfl, Xml.reads_leaf_iff (by decide) hline, ih hlines,
      List.forall_mem_cons, and_iff_right Xml.isCharacterData_lineFeed]

end Lines

private theorem summary_eq (endpoint : Endpoint) :
    Trivia.summary {} [templateLine "CN" endpoint.chinese, templateLine "OS" endpoint.oversea] =
      Trivia.doc {} (String.ofList (Xml.tagged "summary"
        ('\n' :: endpoint.lines.flatMap writtenLine))) := by
  rw [Trivia.summary, List.foldl_cons, List.foldl_cons, List.foldl_nil, Trivia.doc_doc,
    Trivia.doc_doc, Trivia.doc_doc]
  refine congrArg (Trivia.doc {}) ?_
  rw [← String.toList_inj, String.toList_ofList]
  simp [Xml.tagged, lines, writtenLine, templateLine, Text.ampersands_eq, Text.ampersandChar]

/-- The documentation of an endpoint is read as it is meant if nothing in its lines but ampersands is
markup. -/
theorem reads_declaration_iff {endpoint : Endpoint} {member : Member}
    (h : endpoint.declaration? = some member) :
    Xml.Reads [endpoint.summaryNode] member.toTree.documentation ↔
      ∀ line ∈ endpoint.lines, Xml.IsKeptRaw line := by
  obtain ⟨signature, -, rfl⟩ := Option.map_eq_some_iff.mp h
  have hname : (signature.toDeclaration .absent).name? = some signature.name := rfl
  let trivia := Trivia.summary {}
    [templateLine "CN" endpoint.chinese, templateLine "OS" endpoint.oversea]
  have hparts := (Member.parts_leadingTrivia { trivia } hname).trans
    (congrArg Trivia.trees (summary_eq endpoint))
  have hfeeds := Xml.lineFeeds_tagged (show '\r' ∉ "summary".toList by decide)
    ('\n' :: endpoint.lines.flatMap writtenLine) []
  rw [List.append_nil, Text.lineFeeds_nil, List.append_nil, Text.lineFeeds_cons (by decide),
    lineFeeds_lines] at hfeeds
  rw [Trivia.documentation_doc hparts (by simp [Xml.getLast?_tagged]), String.toList_ofList, hfeeds,
    summaryNode, Xml.reads_whole_iff (by decide)]
  have hline (line : String) :
      Xml.IsCharacterData (readLine line) line.toList ↔ Xml.IsKeptRaw line := by
    rw [readLine, Xml.isCharacterData_ampersands_iff, Xml.lineFeeds_and_legal_iff]
    rfl
  constructor
  · intro hreads line hm
    exact (hline line).mp ((reads_lines_iff (tagless_of_reads hreads)).mp hreads line hm)
  · intro hlines
    have hmeant : ∀ line ∈ endpoint.lines, Xml.IsCharacterData (readLine line) line.toList :=
      fun line hm => (hline line).mpr (hlines line hm)
    exact (reads_lines_iff fun line hm => (hmeant line hm).tagless).mpr hmeant

end Endpoint

/-- The texts of files in the documentation of an entry: its name, its comment unless that is blank,
and the locales and values. -/
def ResourceEntry.texts (entry : ResourceEntry) : List String :=
  entry.name :: ((entry.comment.filter fun comment => !(Text.trim comment).isEmpty).toList ++
    entry.values.flatMap fun value => [value.locale, value.value.getD ""])

private theorem ResourceEntry.kept_lines_iff (entry : ResourceEntry) :
    (∀ line ∈ entry.lines, Xml.IsKept line.2) ↔ ∀ text ∈ entry.texts, Xml.IsKept text := by
  have hlooks : Xml.IsKept "Looks up a localized string for \"" := by decide
  have hstop : Xml.IsKept "\"." := by decide
  have hgap : Xml.IsKept " Value: \"" := by decide
  have hquote : Xml.IsKept "\"" := by decide
  have hname : Xml.IsKept ("Looks up a localized string for \"" ++ entry.name ++ "\".") ↔
      Xml.IsKept entry.name := by
    simp only [Xml.isKept_append, hlooks, hstop, true_and, and_true]
  have hpadded (locale : String) : Xml.IsKept (padded locale) ↔ Xml.IsKept locale := by
    have hspaces : Xml.IsKept (String.ofList (List.replicate (8 - locale.length) ' ')) := by
      intro c hc
      rw [String.toList_ofList] at hc
      exact List.eq_of_mem_replicate hc ▸ by decide
    rw [padded, Xml.isKept_append, and_iff_left hspaces]
  have hvalue (value : ResourceValue) :
      Xml.IsKept (padded value.locale ++ " Value: \"" ++ value.value.getD "" ++ "\"") ↔
        ∀ text ∈ [value.locale, value.value.getD ""], Xml.IsKept text := by
    simp only [Xml.isKept_append, hpadded, hgap, hquote, and_true, List.forall_mem_cons]
    simp
  simp only [lines, texts, List.forall_mem_cons, List.forall_mem_append, List.forall_mem_map,
    List.forall_mem_flatMap, hname, hvalue]

private theorem Endpoint.kept_lines_iff (endpoint : Endpoint) :
    (∀ line ∈ endpoint.lines, Xml.IsKeptRaw line) ↔
      ∀ template ∈ [endpoint.chinese, endpoint.oversea], Xml.IsKeptRaw template := by
  have hregion {region : String} (hr : region ∈ ["CN: ", "OS: "]) (template : String) :
      Xml.IsKeptRaw (region ++ template) ↔ Xml.IsKeptRaw template := by
    have hkept : ∀ region ∈ ["CN: ", "OS: "], Xml.IsKept region ∧ '<' ∉ region.toList := by decide
    have hapart : ∀ region ∈ ["CN: ", "OS: "], ∀ c ∈ region.toList, c ∉ "]]>".toList := by decide
    obtain ⟨hregion, hbracket⟩ := hkept region hr
    rw [Xml.IsKeptRaw, Xml.isKept_append, and_iff_right hregion, String.toList_append,
      List.mem_append, or_iff_right hbracket, Text.infix_append_iff (hapart region hr) (by simp)]
    rfl
  simp only [lines, List.forall_mem_cons, hregion (List.mem_cons_self ..),
    hregion (List.mem_cons_of_mem _ (List.mem_cons_self ..))]

/-- The documentation of a member for an entry is read as it is meant if XML keeps the texts of the
entry; that of its method, if its name needs no escapes; that of an endpoint, if its addresses need no
escapes but those of ampersands. Otherwise it is not. -/
theorem documentation_reads_iff (entry : ResourceEntry) {endpoint : Endpoint} {member : Member}
    (h : endpoint.declaration? = some member) :
    (Xml.Reads [entry.summaryNode] entry.property.toTree.documentation ↔
      ∀ text ∈ entry.texts, Xml.IsKept text) ∧
    (Xml.Reads [entry.summaryNode] entry.toEnumMember.toTree.documentation ↔
      ∀ text ∈ entry.texts, Xml.IsKept text) ∧
    (Xml.Reads [entry.referenceNode] entry.formatMethod.toTree.documentation ↔
      ∀ c ∈ entry.name.toList, Xml.isLegal c = true ∧ c ∉ Xml.markedInQuotes) ∧
    (Xml.Reads [endpoint.summaryNode] member.toTree.documentation ↔
      ∀ template ∈ [endpoint.chinese, endpoint.oversea], Xml.IsKeptRaw template) := by
  refine ⟨?_, ?_, entry.reads_formatMethod_iff, ?_⟩
  · rw [entry.reads_property_iff, entry.kept_lines_iff]
  · rw [entry.reads_enumMember_iff, entry.kept_lines_iff]
  · rw [Endpoint.reads_declaration_iff h, endpoint.kept_lines_iff]

/-- An endpoint whose signature can be read has a member. -/
private theorem exists_declaration (endpoint : Endpoint)
    (h : (Signature.parse? endpoint.method).isSome = true) :
    ∃ member, endpoint.declaration? = some member := by
  obtain ⟨signature, hsignature⟩ := Option.isSome_iff_exists.mp h
  exact ⟨_, by rw [Endpoint.declaration?, hsignature, Option.map_some]⟩

/-- A value with brackets, and an address with ampersands, are given back. -/
theorem documentation_reads_iff_brackets :
    let entry : ResourceEntry := ⟨"Title", none, none, [⟨"de", some "<a> & \"b\""⟩], 0⟩
    let endpoint : Endpoint := ⟨"string A()", "https://cn/?a=1&b=2", ""⟩
    Xml.Reads [entry.summaryNode] entry.property.toTree.documentation ∧
      ∃ member, endpoint.declaration? = some member ∧
        Xml.Reads [endpoint.summaryNode] member.toTree.documentation := by
  intro entry endpoint
  obtain ⟨member, hmember⟩ := exists_declaration endpoint (by decide +kernel)
  obtain ⟨hproperty, -, -, hdeclaration⟩ := documentation_reads_iff entry hmember
  exact ⟨hproperty.mpr (by decide +kernel), member, hmember, hdeclaration.mpr (by decide +kernel)⟩

/-- Neither a name with an ampersand, in the documentation of the method for it, nor an address with a
bracket is given back. -/
theorem documentation_unread :
    let entry : ResourceEntry := ⟨"A&B", none, none, [⟨Culture.neutral, some "\x7b0\x7d"⟩], 1⟩
    let endpoint : Endpoint := ⟨"string A()", "https://cn/?a<b", ""⟩
    ¬Xml.Reads [entry.referenceNode] entry.formatMethod.toTree.documentation ∧
      ∃ member, endpoint.declaration? = some member ∧
        ¬Xml.Reads [endpoint.summaryNode] member.toTree.documentation := by
  intro entry endpoint
  obtain ⟨member, hmember⟩ := exists_declaration endpoint (by decide +kernel)
  refine ⟨entry.reads_formatMethod_iff.not.mpr (by decide +kernel), member, hmember, ?_⟩
  exact (Endpoint.reads_declaration_iff hmember).not.mpr (by decide +kernel)

end SourceGen
