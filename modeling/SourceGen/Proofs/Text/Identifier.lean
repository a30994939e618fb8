import SourceGen.Proofs.Generator.Resource
import SourceGen.Proofs.Resource.Culture

/-! The identifiers that stand for arbitrary texts. They have the form of identifiers, and texts
that have it stand for themselves. This holds of reserved words as well, which are left as they are
though they cannot be names. -/

namespace SourceGen.Text

/-- The form of an identifier: an underscore or a character that can start one, and then characters
that can continue one. -/
inductive HasIdentifierForm : List Char → Prop
  | word {first : Char} {rest : List Char} (hfirst : first = '_' ∨ isIdentifierStart first = true)
      (hrest : ∀ c ∈ rest, isIdentifierContinue c = true) : HasIdentifierForm (first :: rest)

theorem identifierChars_eq_self_iff {text : List Char} :
    identifierChars text = text ↔ HasIdentifierForm text := by
  constructor
  · intro h
    cases text with
    | nil => cases h
    | cons c rest =>
      obtain ⟨hfirst, hrest⟩ := identifierChars_cons_eq_iff.mp h
      exact .word hfirst hrest
  · rintro ⟨hfirst, hrest⟩
    exact identifierChars_cons_eq_iff.mpr ⟨hfirst, hrest⟩

theorem isIdentifierContinue_keptOrUnderscore (c : Char) :
    isIdentifierContinue (keptOrUnderscore c) = true := by
  unfold keptOrUnderscore
  split
  · assumption
  · decide

/-- Whatever a text is, an identifier stands for it. -/
theorem hasIdentifierForm_identifierChars (text : List Char) :
    HasIdentifierForm (identifierChars text) := by
  cases text with
  | nil => exact .word (.inl rfl) (by simp)
  | cons c rest =>
    have hrest : ∀ d ∈ rest.map keptOrUnderscore, isIdentifierContinue d = true := by
      intro d hd
      obtain ⟨own, -, rfl⟩ := List.mem_map.mp hd
      exact isIdentifierContinue_keptOrUnderscore own
    rw [identifierChars, identifierHead]
    split
    · next hfirst =>
      have hkept : keptOrUnderscore c = c := by
        rcases Bool.or_eq_true_iff.mp hfirst with h | h
        · rw [of_decide_eq_true h]
          decide
        · exact keptOrUnderscore_eq_self_iff.mpr (isIdentifierContinue_of_start h)
      rw [hkept]
      exact .word (by simpa using hfirst) hrest
    split
    · next hcontinue => exact .word (.inl rfl) (List.forall_mem_cons.mpr ⟨hcontinue, hrest⟩)
    · exact .word (.inl rfl) hrest

/-- A text that something is changed in gets an underscore. -/
theorem identifierChars_eq_self {text : List Char} (h : '_' ∉ identifierChars text) :
    identifierChars text = text := by
  cases text with
  | nil => exact absurd List.mem_cons_self h
  | cons c rest =>
    rw [identifierChars, List.mem_append, not_or] at h
    obtain ⟨hhead, hrest⟩ := h
    refine identifierChars_cons_eq_iff.mpr ⟨?_, fun d hd => ?_⟩
    · by_contra hfirst
      rw [identifierHead, if_neg (by simpa using hfirst)] at hhead
      split at hhead <;> simp at hhead
    · by_contra hcontinue
      refine hrest (List.mem_map.mpr ⟨d, hd, ?_⟩)
      rw [keptOrUnderscore, if_neg hcontinue]

section Reserved

private theorem mem_keywords {word : String} (h : Token.isReserved word = true) :
    word ∈ Token.keywords :=
  List.contains_iff_mem.mp (Bool.and_eq_true_iff.mp h).1

theorem underscore_not_mem_reserved {word : String} (h : Token.isReserved word = true) :
    '_' ∉ word.toList :=
  (show ∀ word ∈ Token.keywords, '_' ∉ word.toList by decide) word (mem_keywords h)

theorem identifierChars_reserved {word : String} (h : Token.isReserved word = true) :
    identifierChars word.toList = word.toList :=
  (show ∀ word ∈ Token.keywords, identifierChars word.toList = word.toList by decide) word
    (mem_keywords h)

/-- Reserved words are the identifiers of themselves, and of no other text. -/
theorem isReserved_toIdentifier (text : String) :
    Token.isReserved (toIdentifier text) = Token.isReserved text := by
  have hof (h : identifierChars text.toList = text.toList) : toIdentifier text = text := by
    rw [toIdentifier, h, String.ofList_toList]
  rw [Bool.eq_iff_iff]
  constructor
  · intro h
    have hunderscore := underscore_not_mem_reserved h
    rw [toIdentifier, String.toList_ofList] at hunderscore
    rwa [hof (identifierChars_eq_self hunderscore)] at h
  · intro h
    rwa [hof (identifierChars_reserved h)]

end Reserved

theorem hasIdentifierForm_toIdentifier (text : String) :
    HasIdentifierForm (toIdentifier text).toList := by
  rw [toIdentifier, String.toList_ofList]
  exact hasIdentifierForm_identifierChars text.toList

/-- A text that has the form of an identifier stands for itself, and no other text does. -/
theorem toIdentifier_eq_self_iff {text : String} :
    toIdentifier text = text ↔ HasIdentifierForm text.toList := by
  rw [← identifierChars_eq_self_iff, ← String.toList_inj, toIdentifier, String.toList_ofList]

theorem HasIdentifierForm.head?_ne_at {word : List Char} (h : HasIdentifierForm word) :
    word.head? ≠ some '@' := by
  obtain ⟨hfirst, -⟩ := h
  rw [List.head?_cons]
  rintro ⟨⟩
  revert hfirst
  decide

/-- The identifier of a text is a name unless the text is a reserved word. -/
theorem isName_toIdentifier (text : String) :
    isName (toIdentifier text) = !Token.isReserved text := by
  have hform := hasIdentifierForm_toIdentifier text
  rw [isName_eq hform.head?_ne_at, identifierChars_eq_self_iff.mpr hform, isReserved_toIdentifier,
    beq_self_eq_true, Bool.true_and]

end SourceGen.Text

namespace SourceGen

namespace ResourceFile

theorem key?_className {settings : Settings} {assemblyName : Option String} {path : String}
    {key : ResourceKey} (h : key? settings assemblyName path = .ok key)
    (hown : own? settings "ClassName" = none) :
    key.className = Text.toIdentifier (String.ofList (lastPathPart path.toList)) := by
  simp only [key?] at h
  split at h
  · cases h
  split at h
  · cases h
  cases h
  rw [hown, Option.getD_none]

/-- The class of a file is named after the file, unless a setting names it. -/
theorem read_className {input : FileInput} {file : ResourceFile} (h : read input = .ok file)
    (hown : own? input.settings "ClassName" = none) :
    file.key.className =
      Text.toIdentifier (String.ofList (lastPathPart file.resourcePath.toList)) := by
  cases hdata : ResourceData.read input.file.text with
  | none =>
    simp only [read, hdata] at h
    cases h
  | some data =>
    rw [read_eq hdata Prod.mk.eta.symm] at h
    split at h
    · cases h
    · next hkey =>
      cases h
      exact key?_className hkey hown

end ResourceFile

/-- Every text has an identifier, and is it if it has the form of one. The identifier is a name
unless the text is a reserved word, and so is that of the class for a file which the text names. -/
theorem Text.toIdentifier_isName_iff (text : String) :
    HasIdentifierForm (toIdentifier text).toList ∧
    (toIdentifier text = text ↔ HasIdentifierForm text.toList) ∧
    toIdentifier (toIdentifier text) = toIdentifier text ∧
    (isName (toIdentifier text) = true ↔ Token.isReserved text = false) ∧
    ∀ (input : FileInput) (file : ResourceFile) (entries : List ResourceEntry),
      ResourceFile.read input = .ok file →
      ResourceFile.own? input.settings "ClassName" = none →
      String.ofList (lastPathPart file.resourcePath.toList) = text →
      ∃ tree members,
        (⟨file.key, entries⟩ : ResourceContext).classUnit.toTree.declared = tree :: members ∧
        tree.DeclaresType .classDeclaration file.key.className [] ∧
        (isName file.key.className = true ↔ Token.isReserved text = false) := by
  have hform := hasIdentifierForm_toIdentifier text
  have hname : isName (toIdentifier text) = true ↔ Token.isReserved text = false := by
    rw [isName_toIdentifier, Bool.not_eq_true']
  refine ⟨hform, toIdentifier_eq_self_iff, toIdentifier_eq_self_iff.mpr hform, hname, ?_⟩
  rintro input file entries hread hown rfl
  obtain ⟨tree, members, hdeclared, htype, -⟩ :=
    ResourceContext.classUnit_declares ⟨file.key, entries⟩
  refine ⟨tree, members, hdeclared, htype, ?_⟩
  rw [ResourceFile.read_className hread hown]
  exact hname

/-- The class of a file with a dash in its name. -/
theorem Text.toIdentifier_isName_iff_dash :
    ∃ file tree members,
      ResourceFile.read ⟨⟨"App/1st-Menu.resx", "<root/>"⟩, [], some "App"⟩ = .ok file ∧
      (⟨file.key, []⟩ : ResourceContext).classUnit.toTree.declared = tree :: members ∧
      tree.DeclaresType .classDeclaration "_1st_Menu" [] ∧ isName "_1st_Menu" = true := by
  obtain ⟨-, -, -, -, hfiles⟩ := toIdentifier_isName_iff "1st-Menu"
  have hread : ResourceFile.read ⟨⟨"App/1st-Menu.resx", "<root/>"⟩, [], some "App"⟩ =
      .ok ⟨"App/1st-Menu.resx", "App/1st-Menu", Culture.neutral,
        ⟨"App", "_1st_Menu", "App.1st-Menu"⟩, []⟩ := by
    decide +kernel
  obtain ⟨tree, members, hdeclared, htype, hname⟩ :=
    hfiles _ _ [] hread (by decide +kernel) (by decide +kernel)
  exact ⟨_, tree, members, hread, hdeclared, htype, hname.mpr (by decide)⟩

/-- Reserved words are left as they are, also where they are names of files. -/
theorem Text.toIdentifier_class :
    toIdentifier "class" = "class" ∧ Token.isReserved "class" = true ∧
    ∃ file, ResourceFile.read ⟨⟨"App/class.resx", "<root/>"⟩, [], some "App"⟩ = .ok file ∧
      file.key.className = "class" ∧ isName file.key.className = false :=
  ⟨by decide, by decide,
    ⟨"App/class.resx", "App/class", Culture.neutral, ⟨"App", "class", "App.class"⟩, []⟩,
    by decide +kernel, rfl, by decide⟩

end SourceGen
