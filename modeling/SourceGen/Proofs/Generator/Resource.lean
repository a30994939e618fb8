import SourceGen.Generator.Resource
import SourceGen.Proofs.Resource.Grouping
import SourceGen.Proofs.Syntax.Members
import SourceGen.Proofs.Text.Split
import Mathlib.Data.List.Nodup
import Mathlib.Data.List.Pairwise

/-! The members of a class through which resources are looked up. The names of the entries are
arbitrary texts and are taken as they are, so that it depends on them whether the members can be
declared in one class. -/

namespace SourceGen

namespace Token

/-- The keywords that can be names all the same. -/
def contextualWords : List String :=
  ["async", "file", "get", "global", "init", "nint", "not", "nuint", "partial", "record", "set",
    "required", "scoped"]

/-- Whether a word cannot be a name. -/
def isReserved (word : String) : Bool :=
  isKeyword word && !contextualWords.contains word

end Token

namespace Text

theorem isIdentifierContinue_of_start {c : Char} (h : isIdentifierStart c = true) :
    isIdentifierContinue c = true := by
  unfold isIdentifierContinue
  split
  · next hascii =>
    have halpha : c.isAlpha = true := by simpa [isIdentifierStart, hascii] using h
    simp [Char.isAlphanum, halpha]
  · rw [h, Bool.true_or]

theorem keptOrUnderscore_eq_self_iff {c : Char} :
    keptOrUnderscore c = c ↔ isIdentifierContinue c = true := by
  unfold keptOrUnderscore
  split
  · next h => simp [h]
  · next h =>
    refine iff_of_false (fun heq => h ?_) h
    rw [← heq]
    decide

/-- A text is the identifier that stands for it if it starts and goes on as one. -/
theorem identifierChars_cons_eq_iff {c : Char} {rest : List Char} :
    identifierChars (c :: rest) = c :: rest ↔
      (c = '_' ∨ isIdentifierStart c = true) ∧ ∀ d ∈ rest, isIdentifierContinue d = true := by
  have hrest : rest.map keptOrUnderscore = rest ↔ ∀ d ∈ rest, isIdentifierContinue d = true := by
    nth_rewrite 2 [← List.map_id rest]
    simp only [List.map_inj_left, id, keptOrUnderscore_eq_self_iff]
  rw [identifierChars, identifierHead]
  by_cases h : c = '_' ∨ isIdentifierStart c = true
  · have hc : keptOrUnderscore c = c := by
      rcases h with rfl | h
      · decide
      · exact keptOrUnderscore_eq_self_iff.mpr (isIdentifierContinue_of_start h)
    simp [h, hc, hrest]
  · -- another first character is replaced, or has an underscore in front
    have hne : '_' ≠ c := fun heq => h (.inl heq.symm)
    rw [if_neg (by simpa using h)]
    split <;> simp [h, hne]

theorem isIdentifierContinue_of_mem {word : List Char} (h : identifierChars word = word)
    {c : Char} (hc : c ∈ word) : isIdentifierContinue c = true := by
  cases word with
  | nil => cases hc
  | cons first rest =>
    obtain ⟨hfirst, hrest⟩ := identifierChars_cons_eq_iff.mp h
    rcases List.mem_cons.mp hc with rfl | hc
    · rcases hfirst with rfl | hstart
      · decide
      · exact isIdentifierContinue_of_start hstart
    · exact hrest c hc

/-- Whether a text is a name: a word that is not reserved, or any word behind an at sign. -/
def isName (text : String) : Bool :=
  match text.toList with
  | '@' :: word => identifierChars word == word
  | word => identifierChars word == word && !Token.isReserved text

/-- What a name shares only with itself. Neither an at sign in front nor joiners count. -/
def identity (name : String) : List Char :=
  let word := match name.toList with
    | '@' :: word => word
    | word => word
  word.filter fun c => c ≠ Char.ofNat 0x200C && c ≠ Char.ofNat 0x200D

section Format

variable {name : String}

theorem isName_eq (h : name.toList.head? ≠ some '@') :
    isName name = (identifierChars name.toList == name.toList && !Token.isReserved name) := by
  unfold isName
  split
  · next heq => exact absurd (by rw [heq, List.head?_cons]) h
  · rfl

theorem identity_eq (h : name.toList.head? ≠ some '@') :
    identity name =
      name.toList.filter fun c => c ≠ Char.ofNat 0x200C && c ≠ Char.ofNat 0x200D := by
  unfold identity
  split
  · next heq => exact absurd (by rw [heq, List.head?_cons]) h
  · rfl

private theorem head?_format : ("Format" ++ name).toList.head? = some 'F' := by
  simp

private theorem isReserved_format : Token.isReserved ("Format" ++ name) = false := by
  have hall : ∀ word ∈ Token.keywords, word.toList.head? ≠ some 'F' := by decide
  have hkeyword : Token.isKeyword ("Format" ++ name) = false := by
    rw [Token.isKeyword, ← Bool.not_eq_true, List.contains_iff_mem]
    exact fun hm => hall _ hm head?_format
  rw [Token.isReserved, hkeyword, Bool.false_and]

/-- Behind `Format` a name makes another one, unless it starts with an at sign. -/
theorem isName_format_iff (h : isName name = true) :
    isName ("Format" ++ name) = true ↔ name.toList.head? ≠ some '@' := by
  have hchars : ("Format" ++ name).toList = "Format".toList ++ name.toList :=
    String.toList_append ..
  rw [isName_eq (by rw [head?_format]; decide), isReserved_format, Bool.not_false, Bool.and_true,
    beq_iff_eq, hchars]
  constructor
  · intro hword hat
    have hcontinue := isIdentifierContinue_of_mem hword
      (List.mem_append_right _ (List.mem_of_head? hat))
    exact absurd hcontinue (by decide)
  · intro hat
    rw [isName_eq hat, Bool.and_eq_true, beq_iff_eq] at h
    refine identifierChars_cons_eq_iff.mpr ⟨.inr (by decide), fun c hc => ?_⟩
    rcases List.mem_append.mp hc with hc | hc
    · exact (show ∀ c ∈ ['o', 'r', 'm', 'a', 't'], isIdentifierContinue c = true by decide) c hc
    · exact isIdentifierContinue_of_mem h.1 hc

theorem identity_format (h : name.toList.head? ≠ some '@') :
    identity ("Format" ++ name) = "Format".toList ++ identity name := by
  rw [identity_eq h, identity_eq (by rw [head?_format]; decide), String.toList_append,
    List.filter_append]
  rfl

end Format

end Text

namespace ResourceEntry

/-- The sorts and names of the members of an entry. -/
def outline (entry : ResourceEntry) : List (Kind × String) :=
  (.propertyDeclaration, entry.name) ::
    if 0 < entry.formatArguments then [(.methodDeclaration, "Format" ++ entry.name)] else []

/-- The names of the members of an entry. -/
def memberNames (entry : ResourceEntry) : List String :=
  entry.outline.map (·.2)

theorem mem_memberNames {entry : ResourceEntry} {name : String} :
    name ∈ entry.memberNames ↔
      name = entry.name ∨ 0 < entry.formatArguments ∧ name = "Format" ++ entry.name := by
  rw [memberNames, outline]
  split <;> simp_all

theorem outline_toMembers (entry : ResourceEntry) :
    entry.toMembers.map Member.outline = entry.outline.map (Prod.map id some) := by
  rw [toMembers, outline]
  split <;> rfl

theorem back_toMembers {entry : ResourceEntry} :
    ∀ member ∈ entry.toMembers, member.declaration.back = [] := by
  rw [toMembers]
  split <;> simp [property, formatMethod, Member.declaration, Declaration.back]

end ResourceEntry

namespace ResourceContext

/-- The sorts and names of the members that all classes have. -/
def sharedOutline : List (Kind × String) :=
  [(.propertyDeclaration, "ResourceManager"), (.propertyDeclaration, "Culture")] ++
    List.replicate 4 (.methodDeclaration, "GetObject") ++
    List.replicate 2 (.methodDeclaration, "GetStream") ++
    List.replicate 4 (.methodDeclaration, "GetString")

/-- Whether members can be declared with these names, next to the members that all classes have. -/
structure AreDeclarable (names : List String) : Prop where
  valid : ∀ name ∈ names, Text.isName name = true
  distinct : (names.map Text.identity).Nodup
  apart : ∀ name ∈ names, ∀ shared ∈ sharedOutline, Text.identity name ≠ Text.identity shared.2

instance (names : List String) : Decidable (AreDeclarable names) :=
  decidable_of_iff (_ ∧ _ ∧ _) ⟨fun ⟨hv, hd, ha⟩ => ⟨hv, hd, ha⟩, fun ⟨hv, hd, ha⟩ => ⟨hv, hd, ha⟩⟩

end ResourceContext

/-- Whether the members of an entry can be declared next to those of some entries. -/
structure ResourceEntry.IsDeclarable (entries : List ResourceEntry) (entry : ResourceEntry) :
    Prop where
  valid : Text.isName entry.name = true
  apart : ∀ shared ∈ ResourceContext.sharedOutline,
    Text.identity entry.name ≠ Text.identity shared.2
  single : ∀ other ∈ entries, Text.identity other.name = Text.identity entry.name → other = entry
  format : 0 < entry.formatArguments → entry.name.toList.head? ≠ some '@' ∧
    ∀ other ∈ entries, Text.identity other.name ≠ "Format".toList ++ Text.identity entry.name

instance (entries : List ResourceEntry) (entry : ResourceEntry) :
    Decidable (entry.IsDeclarable entries) :=
  decidable_of_iff (_ ∧ _ ∧ _ ∧ _)
    ⟨fun ⟨hv, ha, hs, hf⟩ => ⟨hv, ha, hs, hf⟩, fun ⟨hv, ha, hs, hf⟩ => ⟨hv, ha, hs, hf⟩⟩

namespace ResourceContext

variable {entries : List ResourceEntry}

private theorem identity_ne_format {name : String} :
    Text.identity name ≠ "Format".toList ++ Text.identity name := by
  intro heq
  have hlength := congrArg List.length heq
  rw [List.length_append] at hlength
  exact absurd hlength (by simp)

private theorem format_apart {name : String} (h : name.toList.head? ≠ some '@') :
    ∀ shared ∈ sharedOutline, Text.identity ("Format" ++ name) ≠ Text.identity shared.2 := by
  have hall : ∀ shared ∈ sharedOutline, ¬"Format".toList <+: Text.identity shared.2 := by
    decide +kernel
  intro shared hm heq
  rw [Text.identity_format h] at heq
  exact hall shared hm ⟨_, heq⟩

private theorem identities_nodup_iff (hn : entries.Nodup) :
    ((entries.flatMap ResourceEntry.memberNames).map Text.identity).Nodup ↔
      (∀ entry ∈ entries, (entry.memberNames.map Text.identity).Nodup) ∧
      ∀ entry ∈ entries, ∀ other ∈ entries, entry ≠ other →
        ∀ name ∈ entry.memberNames, ∀ second ∈ other.memberNames,
          Text.identity name ≠ Text.identity second := by
  have : Std.Symm (Function.onFun List.Disjoint fun entry : ResourceEntry =>
      entry.memberNames.map Text.identity) := ⟨fun _ _ hd _ h h' => hd h' h⟩
  rw [List.map_flatMap, List.nodup_flatMap]
  refine and_congr_right fun _ => ⟨fun h entry he other ho hne name hname second hsecond heq => ?_,
    fun h => hn.pairwise_of_forall_ne fun entry he other ho hne => ?_⟩
  · have hdisjoint := h.forall he ho hne
    exact hdisjoint (List.mem_map_of_mem hname) (heq ▸ List.mem_map_of_mem hsecond)
  · intro identity hown hother
    obtain ⟨name, hname, rfl⟩ := List.mem_map.mp hown
    obtain ⟨second, hsecond, heq⟩ := List.mem_map.mp hother
    exact h entry he other ho hne name hname second hsecond heq.symm

/-- If all names can be declared together, so can those of each entry. -/
theorem AreDeclarable.entry (hn : entries.Nodup)
    (h : AreDeclarable (entries.flatMap ResourceEntry.memberNames)) {entry : ResourceEntry}
    (he : entry ∈ entries) : entry.IsDeclarable entries := by
  obtain ⟨-, hapart⟩ := (identities_nodup_iff hn).mp h.distinct
  have hproperty (entry : ResourceEntry) : entry.name ∈ entry.memberNames :=
    ResourceEntry.mem_memberNames.mpr (.inl rfl)
  have hname : entry.name ∈ entries.flatMap ResourceEntry.memberNames :=
    List.mem_flatMap.mpr ⟨entry, he, hproperty entry⟩
  refine ⟨h.valid _ hname, h.apart _ hname, fun other ho heq => ?_, fun hpos => ?_⟩
  · by_contra hne
    exact hapart other ho entry he hne _ (hproperty other) _ (hproperty entry) heq
  · have hmethod : "Format" ++ entry.name ∈ entry.memberNames :=
      ResourceEntry.mem_memberNames.mpr (.inr ⟨hpos, rfl⟩)
    have hat := (Text.isName_format_iff (h.valid _ hname)).mp
      (h.valid _ (List.mem_flatMap.mpr ⟨entry, he, hmethod⟩))
    refine ⟨hat, fun other ho heq => ?_⟩
    by_cases hne : other = entry
    · exact identity_ne_format (hne ▸ heq)
    · rw [← Text.identity_format hat] at heq
      exact hapart other ho entry he hne _ (hproperty other) _ hmethod heq

/-- If the names of each entry can be declared with the others in view, all can be declared
together. -/
theorem AreDeclarable.of_entries (hn : entries.Nodup)
    (h : ∀ entry ∈ entries, entry.IsDeclarable entries) :
    AreDeclarable (entries.flatMap ResourceEntry.memberNames) := by
  have hidentity {entry : ResourceEntry} (he : entry ∈ entries) (hpos : 0 < entry.formatArguments) :
      Text.identity ("Format" ++ entry.name) = "Format".toList ++ Text.identity entry.name :=
    Text.identity_format ((h entry he).format hpos).1
  refine ⟨fun name hname => ?_, (identities_nodup_iff hn).mpr ⟨fun entry he => ?_, ?_⟩,
    fun name hname => ?_⟩
  · obtain ⟨entry, he, hname⟩ := List.mem_flatMap.mp hname
    rcases ResourceEntry.mem_memberNames.mp hname with rfl | ⟨hpos, rfl⟩
    · exact (h entry he).valid
    · exact (Text.isName_format_iff (h entry he).valid).mpr ((h entry he).format hpos).1
  · rw [ResourceEntry.memberNames, ResourceEntry.outline]
    split
    · next hpos =>
      rw [List.map_cons, List.map_cons, List.map_cons, List.map_cons, hidentity he hpos]
      exact List.nodup_cons.mpr ⟨by simpa using identity_ne_format, by simp⟩
    · simp
  · -- a pair of members of two entries: two properties, two methods, or one of each
    intro entry he other ho hne name hname second hsecond
    rcases ResourceEntry.mem_memberNames.mp hname with rfl | ⟨hpos, rfl⟩ <;>
      rcases ResourceEntry.mem_memberNames.mp hsecond with rfl | ⟨hpos', rfl⟩
    · exact fun heq => hne ((h other ho).single entry he heq)
    · rw [hidentity ho hpos']
      exact ((h other ho).format hpos').2 entry he
    · rw [hidentity he hpos]
      exact (((h entry he).format hpos).2 other ho).symm
    · rw [hidentity he hpos, hidentity ho hpos']
      exact fun heq => hne ((h other ho).single entry he (List.append_cancel_left heq))
  · obtain ⟨entry, he, hname⟩ := List.mem_flatMap.mp hname
    rcases ResourceEntry.mem_memberNames.mp hname with rfl | ⟨hpos, rfl⟩
    · exact (h entry he).apart
    · exact format_apart ((h entry he).format hpos).1

private theorem outline_sharedMembers (key : ResourceKey) :
    (sharedMembers key).map Member.outline = sharedOutline.map (Prod.map id some) :=
  rfl

private theorem back_sharedMembers (key : ResourceKey) :
    ∀ member ∈ sharedMembers key, member.declaration.back = [] := by
  simp [sharedMembers, objectMethods, streamMethods, textMethods, managerProperty, cultureProperty,
    lookupMethod, Member.withAttributes, Member.method, Member.declaration, Declaration.back]

/-- The class declares the members that all classes have, then those of the entries in order. -/
theorem classUnit_declares (context : ResourceContext) :
    ∃ tree members, context.classUnit.toTree.declared = tree :: members ∧
      tree.DeclaresType .classDeclaration context.key.className [] ∧
      List.Forall₂ (fun own tree => tree.Declares own.1 own.2)
        (sharedOutline ++ context.entries.flatMap ResourceEntry.outline) members := by
  let members := sharedMembers context.key ++ context.entries.flatMap ResourceEntry.toMembers
  have hback : ∀ member ∈ members, member.declaration.back = [] := by
    intro member hm
    rcases List.mem_append.mp hm with hm | hm
    · exact back_sharedMembers context.key member hm
    · obtain ⟨entry, -, hm⟩ := List.mem_flatMap.mp hm
      exact entry.back_toMembers member hm
  have houtline : members.map Member.outline =
      (sharedOutline ++ context.entries.flatMap ResourceEntry.outline).map (Prod.map id some) := by
    rw [List.map_append, List.map_append, outline_sharedMembers, List.map_flatMap, List.map_flatMap,
      List.flatMap_congr fun entry _ => entry.outline_toMembers]
  have htype := Member.declaresType
    { modifiers := [.internalAccess, .abstract, .partialDeclaration] } .classType
    context.key.className [] [] members
  refine ⟨_, members.map Member.toTree, ?_, htype, Member.forall₂_declares houtline⟩
  rw [CompilationUnit.declared_toTree, classUnit, file, List.flatMap_singleton]
  exact Member.declared_of_back _ _ _ _ _ hback

end ResourceContext

section Collection

variable {files : List FileInput} {cancelled : Bool} {collected : Collected ResourceContext}
  {context : ResourceContext}

theorem entries_nodup (hc : resourceStage.collect files cancelled = .ok collected)
    (hm : context ∈ collected.contexts) : context.entries.Nodup := by
  have hgather : collected = resourceStage.gather files := by
    unfold FileStage.collect at hc
    split at hc
    · cases hc
    · exact (Except.ok.inj hc).symm
  subst hgather
  have hincreasing : context.entries.Pairwise (·.name < ·.name) :=
    ResourceContext.entries_increasing hm
  exact hincreasing.imp fun hlt heq => absurd (heq ▸ hlt) (lt_irrefl _)

/-- The class of any context that files can give has the members that all classes have, and for each
entry a property and, if its text takes arguments, a method. These can be declared together if the
names of all entries allow for it, and only then. -/
theorem resourceStage_declares_iff (hc : resourceStage.collect files cancelled = .ok collected)
    (hm : context ∈ collected.contexts) :
    (∃ tree members, context.classUnit.toTree.declared = tree :: members ∧
      tree.DeclaresType .classDeclaration context.key.className [] ∧
      List.Forall₂ (fun own tree => tree.Declares own.1 own.2)
        (ResourceContext.sharedOutline ++ context.entries.flatMap ResourceEntry.outline) members) ∧
    (ResourceContext.AreDeclarable (context.entries.flatMap ResourceEntry.memberNames) ↔
      ∀ entry ∈ context.entries, entry.IsDeclarable context.entries) :=
  have hn := entries_nodup hc hm
  ⟨context.classUnit_declares, fun h _ he => h.entry hn he, .of_entries hn⟩

end Collection

/-- What is collected from one file. -/
private theorem collect_file (input : FileInput) (file : ResourceFile)
    (entries : List ResourceEntry) (hown : input.file.isResource = true)
    (hread : ResourceFile.read input = .ok file) (hne : entries ≠ [])
    (hentries : ResourceContext.mergeEntries [file] = entries)
    (hsorted : entries.Pairwise fun a b => a.name ≤ b.name) :
    ∃ collected, resourceStage.collect [input] false = .ok collected ∧
      (⟨file.key, entries⟩ : ResourceContext) ∈ collected.contexts := by
  have hfile : resourceStage.own [input] = [input] := List.filter_cons_of_pos hown
  have hreadings : resourceStage.readings [input] = [.ok file] := by
    rw [FileStage.readings, hfile, List.map_singleton]
    exact congrArg (fun reading => [reading]) hread
  have hgroup : ResourceContext.ofGroup file.key [file] = some ⟨file.key, entries⟩ := by
    have hmerge : entries.mergeSort (fun a b => decide (a.name ≤ b.name)) = entries :=
      List.mergeSort_of_pairwise (by simpa using hsorted)
    rw [ResourceContext.ofGroup, hentries, if_neg (by simpa using hne), sortByText, hmerge]
  refine ⟨resourceStage.gather [input], rfl, ?_⟩
  rw [FileStage.gather, hreadings]
  show _ ∈ (ResourceContext.group [.ok file]).contexts
  rw [ResourceContext.group_contexts, sortByText, List.mem_mergeSort, ResourceContext.made]
  exact List.mem_filterMap.mpr ⟨(file.key, [file]), .head _, hgroup⟩

/-- A file with texts of a program. -/
private def stringsFile (elements : String) : FileInput :=
  ⟨⟨"App/Strings.resx", "<root>" ++ elements ++ "</root>"⟩, [], some "App"⟩

/-- What is read from a file with texts of a program. -/
private def strings (data : List ResourceData) : ResourceFile :=
  ⟨"App/Strings.resx", "App/Strings", Culture.neutral, ⟨"App", "Strings", "App.Strings"⟩, data⟩

/-- Whether the entries in a file with texts of a program give members with these names. -/
private def GivesMembers (elements : String) (names : List String) : Prop :=
  ∃ collected context, resourceStage.collect [stringsFile elements] false = .ok collected ∧
    context ∈ collected.contexts ∧ context.entries.flatMap ResourceEntry.memberNames = names

/-- An entry with a hole beside one without gives a method beside two properties. -/
theorem resourceStage_declares_iff_title :
    ∃ collected context, resourceStage.collect [stringsFile
        "<data name=\"Close\"/><data name=\"Title\"><value>\x7b0\x7d</value></data>"] false =
        .ok collected ∧ context ∈ collected.contexts ∧
      context.entries.flatMap ResourceEntry.memberNames = ["Close", "Title", "FormatTitle"] ∧
      ResourceContext.AreDeclarable (context.entries.flatMap ResourceEntry.memberNames) := by
  let title : ResourceEntry := ⟨"Title", none, none, [⟨Culture.neutral, some "\x7b0\x7d"⟩], 1⟩
  let entries : List ResourceEntry := [⟨"Close", none, none, [⟨Culture.neutral, none⟩], 0⟩, title]
  obtain ⟨collected, hc, hm⟩ := collect_file (stringsFile
      "<data name=\"Close\"/><data name=\"Title\"><value>\x7b0\x7d</value></data>")
    (strings [⟨"Close", none, none, none⟩, ⟨"Title", none, none, some "\x7b0\x7d"⟩]) entries
    (by decide +kernel) (by decide +kernel) (by simp) (by decide +kernel) (by decide +kernel)
  exact ⟨collected, _, hc, hm, rfl, (resourceStage_declares_iff hc hm).2.mpr (by decide +kernel)⟩

/-- A name with a dash is declared as it is, and so is that of an entry which is also the name of the
method for another one. -/
theorem resourceStage_undeclarable :
    (GivesMembers "<data name=\"my-name\"/>" ["my-name"] ∧
      ¬ResourceContext.AreDeclarable ["my-name"]) ∧
    GivesMembers
      "<data name=\"FormatTitle\"/><data name=\"Title\"><value>\x7b0\x7d</value></data>"
      ["FormatTitle", "Title", "FormatTitle"] ∧
      ¬ResourceContext.AreDeclarable ["FormatTitle", "Title", "FormatTitle"] := by
  refine ⟨⟨?_, by decide +kernel⟩, ?_, by decide +kernel⟩
  · obtain ⟨collected, hc, hm⟩ := collect_file (stringsFile "<data name=\"my-name\"/>")
      (strings [⟨"my-name", none, none, none⟩])
      [⟨"my-name", none, none, [⟨Culture.neutral, none⟩], 0⟩]
      (by decide +kernel) (by decide +kernel) (by simp) (by decide +kernel) (by simp)
    exact ⟨collected, _, hc, hm, rfl⟩
  · let title : ResourceEntry := ⟨"Title", none, none, [⟨Culture.neutral, some "\x7b0\x7d"⟩], 1⟩
    obtain ⟨collected, hc, hm⟩ := collect_file (stringsFile
      "<data name=\"FormatTitle\"/><data name=\"Title\"><value>\x7b0\x7d</value></data>")
      (strings
        [⟨"FormatTitle", none, none, none⟩, ⟨"Title", none, none, some "\x7b0\x7d"⟩])
      [⟨"FormatTitle", none, none, [⟨Culture.neutral, none⟩], 0⟩, title]
      (by decide +kernel) (by decide +kernel) (by simp) (by decide +kernel) (by decide +kernel)
    exact ⟨collected, _, hc, hm, rfl⟩

end SourceGen
