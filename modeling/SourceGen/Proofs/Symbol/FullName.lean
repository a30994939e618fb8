import SourceGen.Proofs.Syntax.Lexeme
import SourceGen.Proofs.Syntax.TypeText
import SourceGen.Symbol.Display

/-! The full names of types, read as types and written again. What a type is shown as is put together
from the names of the types that it refers to, so its spelling follows from theirs. -/

namespace SourceGen

/-- Whether a type is shown with all that its name consists of. -/
structure DisplayStyle.IsFull (style : DisplayStyle) : Prop where
  qualified : style.qualified = true
  arguments : style.arguments = true

/-- Whether the names that a type has apart from the types it refers to are identifiers. -/
structure TypeInfo.HasIdentifiers (info : TypeInfo) : Prop where
  name : Token.IsIdentifier info.name
  namespaceName : ∃ segments, (∀ segment ∈ segments, Token.IsIdentifier segment) ∧
    info.namespaceName = Text.join "." segments
  parameters : ∀ parameter ∈ info.parameters, Token.IsIdentifier parameter

namespace TypeSymbol

/-- Types all of whose names are identifiers. Arrays and pointers have no names but those of their
elements. -/
inductive HasIdentifiers : TypeSymbol → Prop
  | suffixed {type element : TypeSymbol}
      (hkind : type.info.kind = .array ∨ type.info.kind = .pointer)
      (helement : type.element = some element) (h : HasIdentifiers element) : HasIdentifiers type
  | named {type : TypeSymbol} (harray : type.info.kind ≠ .array)
      (hpointer : type.info.kind ≠ .pointer) (names : type.info.HasIdentifiers)
      (hcontaining : ∀ outer ∈ type.containing,
        outer.info.kind ≠ .array ∧ outer.info.kind ≠ .pointer)
      (containing : ∀ outer ∈ type.containing, HasIdentifiers outer)
      (arguments : ∀ argument ∈ type.arguments, HasIdentifiers argument) : HasIdentifiers type

mutual

/-- Whether an array of pointers is shown in the name of a type, which has the arguments of the type
and of the types around it. -/
def namesPointerArray : TypeSymbol → Bool
  | ⟨_, containing, arguments, _, _, _, _, _⟩ =>
    outerNamesPointerArray containing || anyShowsPointerArray arguments

def outerNamesPointerArray : Option TypeSymbol → Bool
  | none => false
  | some outer => namesPointerArray outer

/-- Whether an array of pointers is part of what a type is shown as. -/
def showsPointerArray : TypeSymbol → Bool
  | ⟨info, containing, arguments, _, _, _, _, element⟩ =>
    match info.kind with
    | .array => element.any (·.info.kind == .pointer) || elementShowsPointerArray element
    | .pointer => elementShowsPointerArray element
    | .parameter => false
    | _ =>
      info.special.isNone && (outerNamesPointerArray containing || anyShowsPointerArray arguments)

def elementShowsPointerArray : Option TypeSymbol → Bool
  | none => false
  | some element => showsPointerArray element

def anyShowsPointerArray : List TypeSymbol → Bool
  | [] => false
  | type :: types => showsPointerArray type || anyShowsPointerArray types

end

end TypeSymbol

section NamedText

variable {info : TypeInfo} {style : DisplayStyle}

private theorem typeName_identifier {name : String} (h : Token.IsIdentifier name) :
    TypeName name (.ident name) false :=
  .word (Token.isIdentifier_iff.mp h)

/-- Identifiers with separators between them. -/
private theorem typeName_identifiers {separator : String} (hseparator : TypeName.Joins separator)
    {names : List String} (hne : names ≠ []) (h : ∀ name ∈ names, Token.IsIdentifier name) :
    ∃ last, TypeName (Text.join separator names) last false := by
  have hjoin := hseparator.join id (fun _ => false) hne
    fun name hm => ⟨.ident name, typeName_identifier (h name hm)⟩
  have hnone : names.any (fun _ => false) = false := by simp
  rwa [List.map_id, hnone] at hjoin

/-- The name of a type behind its namespace or the type around it. -/
private theorem typeName_qualifier (h : info.HasIdentifiers) (hstyle : style.qualified = true)
    {outer : Option String} {splits : Bool} (hnone : outer = none → splits = false)
    (hsome : ∀ text ∈ outer, ∃ last, TypeName text last splits) :
    TypeName (info.qualifier style outer ++ info.name) (.ident info.name) splits := by
  have hglobal {text : String} {last : Token} {splits : Bool} (htext : TypeName text last splits) :
      TypeName ((if style.global then "global::" else "") ++ text) last splits := by
    split
    · exact htext.global
    · simpa using htext
  have hname := typeName_identifier h.name
  simp only [TypeInfo.qualifier, hstyle, Bool.not_true, Bool.false_eq_true, if_false,
    String.append_assoc]
  refine hglobal ?_
  cases outer with
  | some text =>
    obtain ⟨last, htext⟩ := hsome text rfl
    simpa [String.append_assoc] using TypeName.dot htext hname
  | none =>
    obtain ⟨segments, hsegments, hspace⟩ := h.namespaceName
    rw [hnone rfl]
    by_cases hnil : segments = []
    · simpa [hspace, hnil, Text.join] using hname
    · obtain ⟨last, hjoin⟩ := typeName_identifiers TypeName.dot hnil hsegments
      rw [← hspace] at hjoin
      have hempty : info.namespaceName ≠ "" := hjoin.ne_empty
      simpa [hempty, String.append_assoc] using TypeName.dot hjoin hname

/-- What stands behind the name of a type. -/
private theorem typeName_argumentText (h : info.HasIdentifiers) (hstyle : style.IsFull)
    {text : String} {last : Token} {splits : Bool} (htext : TypeName text last splits)
    {arguments : List String} {again : Bool} (hnil : arguments = [] → again = false)
    (hcons : arguments ≠ [] → ∃ final, TypeName (Text.join ", " arguments) final again) :
    ∃ final, TypeName (text ++ info.argumentText style arguments) final (splits || again) ∧
      (final = last ∨ final = .punct .rightAngle) := by
  simp only [TypeInfo.argumentText, hstyle.arguments, Bool.not_true, Bool.false_eq_true, if_false]
  by_cases harguments : arguments = []
  · rw [hnil harguments, Bool.or_false]
    subst harguments
    cases hunbound : info.isUnbound with
    | true => exact ⟨_, by simpa using htext.unbound _, .inr rfl⟩
    | false =>
      by_cases hparameters : info.parameters = []
      · exact ⟨last, by simpa [hparameters] using htext, .inl rfl⟩
      · obtain ⟨final, hjoin⟩ := typeName_identifiers TypeName.comma hparameters h.parameters
        exact ⟨_, by simpa [hparameters] using htext.angled hjoin, .inr rfl⟩
  · obtain ⟨final, hjoin⟩ := hcons harguments
    exact ⟨_, by simpa [harguments] using htext.angled hjoin, .inr rfl⟩

/-- A name behind which an annotation may stand. -/
private theorem typeName_annotated {text : String} {last : Token} {splits : Bool}
    (h : TypeName text last splits) (hlast : last.takesBracket = true)
    (hquestion : last.kind ≠ .question) (info : TypeInfo) (style : DisplayStyle) (isValue : Bool) :
    ∃ final, TypeName (text ++ info.annotation style isValue) final splits ∧
      final.takesBracket = true := by
  unfold TypeInfo.annotation
  split
  · exact ⟨_, h.question hquestion, rfl⟩
  · exact ⟨last, by simpa using h, hlast⟩

private theorem typeName_keyword (special : SpecialType) :
    TypeName special.keyword (.keyword special.keyword) false ∧
      (Token.keyword special.keyword).takesBracket = true := by
  have hword : (Token.keyword special.keyword).IsWord := by
    cases special <;> exact .plain rfl (by decide) (by decide) (by decide)
  exact ⟨.word hword, by cases special <;> decide⟩

end NamedText

namespace TypeSymbol

/-- What a type is shown as ends with a star if the type is a pointer, and otherwise with a token
that an opening bracket follows without a space. -/
def EndsType (kind : TypeKind) (last : Token) : Prop :=
  if kind = .pointer then last.kind = .star else last.takesBracket = true

private theorem EndsType.star_eq {kind : TypeKind} {last : Token} (h : EndsType kind last) :
    (last.kind == .star) = (kind == .pointer) := by
  unfold EndsType at h
  split at h
  · next hkind => simp [h, hkind]
  · next hkind =>
    have hstar : last.kind ≠ .star := by rintro hstar; simp [hstar, Token.takesBracket] at h
    simp [hstar, hkind]

private theorem EndsType.bracket {kind : TypeKind} {last : Token} (h : EndsType kind last) :
    last.takesBracket = true ∨ last.kind = .star := by
  unfold EndsType at h
  split at h
  · exact .inr h
  · exact .inl h

private theorem displayOuter_eq (style : DisplayStyle) (outer : Option TypeSymbol) :
    displayOuter style outer = outer.map (displayName style) := by
  cases outer <;> rfl

private theorem displayAll_eq (style : DisplayStyle) (types : List TypeSymbol) :
    displayAll style types = types.map (display style) := by
  induction types with
  | nil => rfl
  | cons type types ih => rw [displayAll, ih, List.map_cons]

private theorem outerNamesPointerArray_eq (outer : Option TypeSymbol) :
    outerNamesPointerArray outer = outer.any namesPointerArray := by
  cases outer <;> rfl

private theorem anyShowsPointerArray_eq (types : List TypeSymbol) :
    anyShowsPointerArray types = types.any showsPointerArray := by
  induction types with
  | nil => rfl
  | cons type types ih => rw [anyShowsPointerArray, ih, List.any_cons]

theorem displayName_eq (style : DisplayStyle) (type : TypeSymbol) :
    displayName style type = type.info.namedText style
      (type.containing.map (displayName style.ofContaining))
      (type.arguments.map (display style.ofArgument)) := by
  obtain ⟨info, containing, arguments⟩ := type
  rw [displayName, displayOuter_eq, displayAll_eq]

theorem namesPointerArray_eq (type : TypeSymbol) :
    type.namesPointerArray =
      (type.containing.any namesPointerArray || type.arguments.any showsPointerArray) := by
  obtain ⟨info, containing, arguments⟩ := type
  rw [namesPointerArray, outerNamesPointerArray_eq, anyShowsPointerArray_eq]

section Shown

variable {type element : TypeSymbol} (style : DisplayStyle)

theorem display_array (hkind : type.info.kind = .array) (helement : type.element = some element) :
    type.display style =
        element.display style ++ "[]" ++ type.info.annotation style type.isValueType ∧
      type.showsPointerArray = (element.showsPointerArray || element.info.kind == .pointer) := by
  obtain ⟨info, containing, arguments⟩ := type
  simp_all [display, displayElement, showsPointerArray, elementShowsPointerArray, Bool.or_comm]

theorem display_pointer (hkind : type.info.kind = .pointer)
    (helement : type.element = some element) :
    type.display style = element.display style ++ "*" ∧
      type.showsPointerArray = element.showsPointerArray := by
  obtain ⟨info, containing, arguments⟩ := type
  simp_all [display, displayElement, TypeInfo.annotation, showsPointerArray,
    elementShowsPointerArray]

theorem display_parameter (hkind : type.info.kind = .parameter) :
    type.display style = type.info.name ++ type.info.annotation style type.isValueType ∧
      type.showsPointerArray = false := by
  obtain ⟨info, containing, arguments⟩ := type
  simp_all [display, showsPointerArray]

theorem display_special (harray : type.info.kind ≠ .array) (hpointer : type.info.kind ≠ .pointer)
    (hparameter : type.info.kind ≠ .parameter) {special : SpecialType}
    (hspecial : type.info.special = some special) :
    type.display style = special.keyword ++ type.info.annotation style type.isValueType ∧
      type.showsPointerArray = false := by
  obtain ⟨info, containing, arguments⟩ := type
  cases hkind : info.kind <;> simp_all [display, showsPointerArray]

theorem display_named (harray : type.info.kind ≠ .array) (hpointer : type.info.kind ≠ .pointer)
    (hparameter : type.info.kind ≠ .parameter) (hspecial : type.info.special = none) :
    type.display style =
        type.displayName style ++ type.info.annotation style type.isValueType ∧
      type.showsPointerArray = type.namesPointerArray := by
  obtain ⟨info, containing, arguments⟩ := type
  cases hkind : info.kind <;> simp_all [display, displayName, showsPointerArray, namesPointerArray]

end Shown

/-- The name of a type made of identifiers without its arguments, given that of the types around
it. -/
private theorem typeName_qualified {type : TypeSymbol} (names : type.info.HasIdentifiers)
    {style : DisplayStyle} (hstyle : style.qualified = true)
    (houter : ∀ outer ∈ type.containing,
      ∃ last, TypeName (outer.displayName style.ofContaining) last outer.namesPointerArray) :
    TypeName (type.info.qualifier style
      (type.containing.map (displayName style.ofContaining)) ++ type.info.name)
      (.ident type.info.name) (type.containing.any namesPointerArray) := by
  refine typeName_qualifier names hstyle ?_ ?_
  · cases type.containing <;> simp
  · cases hcontaining : type.containing with
    | none => simp
    | some outer => simpa using houter outer hcontaining

/-- The name of a type made of identifiers, given that of the types around it and its arguments. -/
private theorem typeName_displayName {type : TypeSymbol} (names : type.info.HasIdentifiers)
    {style : DisplayStyle} (hstyle : style.IsFull)
    (houter : ∀ outer ∈ type.containing,
      ∃ last, TypeName (outer.displayName style.ofContaining) last outer.namesPointerArray)
    (harguments : ∀ argument ∈ type.arguments,
      ∃ last, TypeName (argument.display style.ofArgument) last argument.showsPointerArray) :
    ∃ last, TypeName (type.displayName style) last type.namesPointerArray ∧
      (last = .ident type.info.name ∨ last = .punct .rightAngle) := by
  have hqualified := typeName_qualified names hstyle.qualified houter
  rw [displayName_eq, namesPointerArray_eq, TypeInfo.namedText]
  refine typeName_argumentText names hstyle hqualified ?_ ?_
  · cases type.arguments <;> simp
  · intro hne
    exact TypeName.comma.join _ _ (by simpa using hne) harguments

/-- What a type made of identifiers is shown as. -/
theorem HasIdentifiers.typeName {type : TypeSymbol} (h : type.HasIdentifiers) :
    ∀ {style : DisplayStyle}, style.IsFull →
      (type.info.kind ≠ .array ∧ type.info.kind ≠ .pointer →
        ∃ last, TypeName (type.displayName style) last type.namesPointerArray) ∧
      ∃ last, TypeName (type.display style) last type.showsPointerArray ∧
        EndsType type.info.kind last := by
  induction h with
  | @suffixed type element hkind helement h ih =>
    intro style hstyle
    refine ⟨fun hname => absurd hkind (by simp [hname]), ?_⟩
    obtain ⟨-, last, hlast, hends⟩ := ih hstyle
    rcases hkind with hkind | hkind
    · obtain ⟨hdisplay, hshows⟩ := display_array style hkind helement
      have harray := hlast.brackets hends.bracket
      rw [hends.star_eq, ← hshows] at harray
      obtain ⟨final, hfinal, htakes⟩ :=
        typeName_annotated harray rfl (by decide) type.info style type.isValueType
      exact ⟨final, hdisplay ▸ hfinal, by simpa [EndsType, hkind] using htakes⟩
    · obtain ⟨hdisplay, hshows⟩ := display_pointer style hkind helement
      rw [hdisplay, hshows]
      exact ⟨_, hlast.star, by simp [EndsType, hkind, Token.punct]⟩
  | @named type harray hpointer names hcontaining containing arguments ihouter iharguments =>
    intro style hstyle
    have hcontainer : style.ofContaining.IsFull := ⟨hstyle.qualified, rfl⟩
    have hargument : style.ofArgument.IsFull := ⟨rfl, hstyle.arguments⟩
    have hshown : ∀ argument ∈ type.arguments,
        ∃ last, TypeName (argument.display style.ofArgument) last argument.showsPointerArray := by
      intro argument hm
      obtain ⟨last, hlast, -⟩ := (iharguments argument hm hargument).2
      exact ⟨last, hlast⟩
    obtain ⟨last, hlast, hends⟩ := typeName_displayName names hstyle
      (fun outer hm => (ihouter outer hm hcontainer).1 (hcontaining outer hm)) hshown
    refine ⟨fun _ => ⟨last, hlast⟩, ?_⟩
    -- the three ways to show what has a name differ in the text in front of the annotation only
    have hannotated {text : String} {final : Token} {splits : Bool}
        (hdisplay : type.display style =
            text ++ type.info.annotation style type.isValueType ∧ type.showsPointerArray = splits)
        (htext : TypeName text final splits) (htakes : final.takesBracket = true)
        (hquestion : final.kind ≠ .question) :
        ∃ shown, TypeName (type.display style) shown type.showsPointerArray ∧
          EndsType type.info.kind shown := by
      obtain ⟨shown, hshown, hbracket⟩ :=
        typeName_annotated htext htakes hquestion type.info style type.isValueType
      rw [hdisplay.1, hdisplay.2]
      exact ⟨shown, hshown, by simpa [EndsType, hpointer] using hbracket⟩
    by_cases hparameter : type.info.kind = .parameter
    · exact hannotated (display_parameter style hparameter) (typeName_identifier names.name) rfl
        (by simp [Token.ident])
    · cases hspecial : type.info.special with
      | some special =>
        obtain ⟨hkeyword, htakes⟩ := typeName_keyword special
        exact hannotated (display_special style harray hpointer hparameter hspecial) hkeyword htakes
          (by simp [Token.keyword])
      | none =>
        refine hannotated (display_named style harray hpointer hparameter hspecial) hlast ?_ ?_
        · rcases hends with rfl | rfl <;> rfl
        · rcases hends with rfl | rfl <;> simp [Token.ident, Token.punct]

section Classes

variable {type : TypeSymbol}

/-- The name of a class without its arguments. -/
private theorem bareName_eq (hkind : type.info.kind = .classType)
    (hspecial : type.info.special = none) :
    type.bareName = type.info.qualifier {}
      (type.containing.map (displayName (DisplayStyle.ofContaining {}))) ++ type.info.name := by
  have hvalue : type.isValueType = false := by simp [isValueType, hkind, hspecial]
  rw [bareName, (display_named _ (by simp [hkind]) (by simp [hkind]) (by simp [hkind]) hspecial).1,
    displayName_eq, TypeInfo.namedText, TypeInfo.annotation, hvalue]
  simp [TypeInfo.argumentText, TypeInfo.qualifier, DisplayStyle.ofContaining]

theorem HasIdentifiers.typeName_bareName (h : type.HasIdentifiers)
    (hkind : type.info.kind = .classType) (hspecial : type.info.special = none) :
    TypeName type.bareName (.ident type.info.name) (type.containing.any namesPointerArray) := by
  rw [bareName_eq hkind hspecial]
  cases h with
  | suffixed hsuffixed => simp [hkind] at hsuffixed
  | named _ _ names hcontaining containing =>
    exact typeName_qualified names rfl fun outer hm =>
      ((containing outer hm).typeName ⟨rfl, rfl⟩).1 (hcontaining outer hm)

/-- A class without arguments is shown with as many commas as separate its parameters. -/
theorem fullName_unbound (hkind : type.info.kind = .classType)
    (hspecial : type.info.special = none) :
    type.unbound.fullName = type.bareName ++
      ("<" ++ String.ofList (List.replicate (type.info.parameters.length - 1) ',') ++ ">") := by
  have hvalue : type.unbound.isValueType = false := by
    simp [isValueType, unbound, hkind, hspecial]
  rw [bareName_eq hkind hspecial, fullName,
    (display_named _ (by simp [unbound, hkind]) (by simp [unbound, hkind])
      (by simp [unbound, hkind]) (by simpa [unbound] using hspecial)).1,
    displayName_eq, TypeInfo.namedText, TypeInfo.annotation, hvalue]
  simp [TypeInfo.argumentText, TypeInfo.qualifier, unbound]

end Classes

namespace HasIdentifiers

variable {type : TypeSymbol}

/-- Named types and type parameters that stand alone. -/
theorem ofInfo {info : TypeInfo} (harray : info.kind ≠ .array) (hpointer : info.kind ≠ .pointer)
    (h : info.HasIdentifiers) : (TypeSymbol.ofInfo info).HasIdentifiers :=
  .named harray hpointer h (by simp [TypeSymbol.ofInfo]) (by simp [TypeSymbol.ofInfo])
    (by simp [TypeSymbol.ofInfo])

theorem special (special : SpecialType) : (TypeSymbol.special special).HasIdentifiers := by
  have hsystem : Token.IsIdentifier "System" :=
    Token.isIdentifier_iff.mpr (.plain rfl (by decide) (by decide) (by decide))
  refine .ofInfo ?_ ?_ ⟨?_, ⟨["System"], by simpa using hsystem, rfl⟩, by simp⟩
  · cases special <;> decide
  · cases special <;> decide
  · rw [Token.isIdentifier_iff]
    cases special <;> exact .plain rfl (by decide) (by decide) (by decide)

theorem array (h : type.HasIdentifiers) : (TypeSymbol.array type).HasIdentifiers :=
  .suffixed (.inl rfl) rfl h

theorem pointer (h : type.HasIdentifiers) : (TypeSymbol.pointer type).HasIdentifiers :=
  .suffixed (.inr rfl) rfl h

theorem annotated (h : type.HasIdentifiers) : type.annotated.HasIdentifiers := by
  unfold TypeSymbol.annotated
  split
  · exact h
  · cases h with
    | suffixed hkind helement h => exact .suffixed hkind helement h
    | named harray hpointer names hcontaining containing arguments =>
      exact .named harray hpointer ⟨names.name, names.namespaceName, names.parameters⟩ hcontaining
        containing arguments

theorem construct (h : type.HasIdentifiers) {arguments : List TypeSymbol}
    (harguments : ∀ argument ∈ arguments, argument.HasIdentifiers) :
    (type.construct arguments).HasIdentifiers := by
  cases h with
  | suffixed hkind helement h => exact .suffixed hkind helement h
  | named harray hpointer names hcontaining containing =>
    exact .named harray hpointer ⟨names.name, names.namespaceName, names.parameters⟩ hcontaining
      containing harguments

theorem unbound (h : type.HasIdentifiers) : type.unbound.HasIdentifiers := by
  cases h with
  | suffixed hkind helement h => exact .suffixed hkind helement h
  | named harray hpointer names hcontaining containing =>
    exact .named harray hpointer ⟨names.name, names.namespaceName, names.parameters⟩ hcontaining
      containing (by simp [TypeSymbol.unbound])

theorem nestIn (h : type.HasIdentifiers) {outer : TypeSymbol} (houter : outer.HasIdentifiers)
    (harray : outer.info.kind ≠ .array) (hpointer : outer.info.kind ≠ .pointer) :
    (type.nestIn outer).HasIdentifiers := by
  have hspace : outer.info.HasIdentifiers := by
    cases houter with
    | suffixed hkind => exact absurd hkind (by simp [harray, hpointer])
    | named _ _ names => exact names
  cases h with
  | suffixed hkind helement h => exact .suffixed hkind helement h
  | named hkind hkind' names _ _ arguments =>
    exact .named hkind hkind' ⟨names.name, hspace.namespaceName, names.parameters⟩
      (by simp [TypeSymbol.nestIn, harray, hpointer]) (by simpa [TypeSymbol.nestIn] using houter)
      arguments

end HasIdentifiers

/-- A type is written in a program as it is shown, by its full name with or without the annotations
of references, unless an array of pointers is part of what is shown. -/
theorem text_parse_fullName_iff {type : TypeSymbol} (h : type.HasIdentifiers) :
    ((TypeExpr.parse type.fullName).text = type.fullName ↔ type.showsPointerArray = false) ∧
      ((TypeExpr.parse type.annotatedName).text = type.annotatedName ↔
        type.showsPointerArray = false) := by
  obtain ⟨last, hfull, -⟩ := (h.typeName (show DisplayStyle.IsFull {} from ⟨rfl, rfl⟩)).2
  obtain ⟨final, hannotated, -⟩ :=
    (h.typeName (show DisplayStyle.IsFull { referenceNullability := true } from ⟨rfl, rfl⟩)).2
  exact ⟨hfull.text_parse_iff, hannotated.text_parse_iff⟩

/-- Arguments and a type inside another one. -/
theorem text_parse_fullName_map :
    let map := ofInfo
      { name := "Map", kind := .classType, namespaceName := "App.Data", parameters := ["K", "V"] }
    let point := (named .structType "App" "Point").nestIn (named .classType "App" "Shapes")
    let type := (map.construct [(special .string).annotated.array, point.pointer]).annotated
    type.HasIdentifiers ∧ type.showsPointerArray = false ∧
      type.annotatedName = "global::App.Data.Map<string?[], global::App.Shapes.Point*>?" ∧
      (TypeExpr.parse type.annotatedName).text = type.annotatedName := by
  intro map point type
  have hidentifiers : ∀ name ∈ ["App", "Data", "Map", "K", "V", "Point", "Shapes"],
      Token.IsIdentifier name := by
    simp only [List.forall_mem_cons, List.not_mem_nil, false_imp_iff, implies_true, and_true,
      Token.isIdentifier_iff]
    refine ⟨?_, ?_, ?_, ?_, ?_, ?_, ?_⟩ <;> exact .plain rfl (by decide) (by decide) (by decide)
  have hin {names : List String} (h : names ⊆ ["App", "Data", "Map", "K", "V", "Point", "Shapes"]) :
      ∀ name ∈ names, Token.IsIdentifier name := fun name hm => hidentifiers name (h hm)
  have hnamed {kind : TypeKind} {name : String} (harray : kind ≠ .array)
      (hpointer : kind ≠ .pointer) (h : Token.IsIdentifier name) :
      (named kind "App" name).HasIdentifiers :=
    .ofInfo harray hpointer ⟨h, ⟨["App"], hin (by decide), rfl⟩, by simp⟩
  have hmap : map.HasIdentifiers := .ofInfo (by decide) (by decide)
    ⟨hidentifiers _ (by decide), ⟨["App", "Data"], hin (by decide), by decide⟩, hin (by decide)⟩
  have hpoint : point.HasIdentifiers :=
    (hnamed (by decide) (by decide) (hidentifiers _ (by decide))).nestIn
      (hnamed (by decide) (by decide) (hidentifiers _ (by decide))) (by decide) (by decide)
  have htype : type.HasIdentifiers := by
    refine (hmap.construct ?_).annotated
    simp only [List.forall_mem_cons, List.not_mem_nil, false_imp_iff, implies_true, and_true]
    exact ⟨(HasIdentifiers.special .string).annotated.array, hpoint.pointer⟩
  have hshows : type.showsPointerArray = false := by decide
  exact ⟨htype, hshows, by decide, (text_parse_fullName_iff htype).2.mpr hshows⟩

/-- A bracket behind a star is written apart. -/
theorem text_parse_pointerArray :
    ¬ ∀ type : TypeSymbol, type.HasIdentifiers →
      (TypeExpr.parse type.fullName).text = type.fullName ∧
        (TypeExpr.parse type.annotatedName).text = type.annotatedName := by
  intro h
  have htext := (h _ (HasIdentifiers.special .uint32).pointer.array).1
  have hname : ((special .uint32).pointer.array).fullName = "uint*[]" := by decide
  have hwritten : (TypeExpr.parse "uint*[]").text = "uint* []" := by decide +kernel
  rw [hname, hwritten] at htext
  exact absurd htext (by decide)

end TypeSymbol

end SourceGen
