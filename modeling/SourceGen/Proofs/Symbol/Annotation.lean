import SourceGen.Symbol.Display
import Mathlib.Data.List.Basic

/-! What types are shown as apart from question marks. These are all that the annotations of types
add to it, so it is the same whether the annotations of references are shown or not. -/

namespace SourceGen

namespace Text

/-- A text without its question marks. -/
def unquestioned (text : String) : List Char :=
  text.toList.filter (· != '?')

@[simp]
theorem unquestioned_append (text other : String) :
    unquestioned (text ++ other) = unquestioned text ++ unquestioned other := by
  simp [unquestioned]

theorem unquestioned_join (separator : String) (texts : List String) :
    unquestioned (join separator texts) =
      (unquestioned separator).intercalate (texts.map unquestioned) := by
  induction texts with
  | nil => rfl
  | cons text rest ih =>
    cases rest with
    | nil => simp [join]
    | cons next rest =>
      rw [join, String.intercalate_cons_cons, unquestioned_append, unquestioned_append, ← join, ih,
        List.map_cons, List.map_cons, List.map_cons, List.intercalate_cons_cons]

end Text

/-- A style in which references have no annotations. -/
def DisplayStyle.plain (style : DisplayStyle) : DisplayStyle :=
  { style with referenceNullability := false }

namespace TypeInfo

variable (info : TypeInfo) (style : DisplayStyle)

theorem unquestioned_annotation (isValue : Bool) :
    Text.unquestioned (info.annotation style isValue) = [] := by
  unfold annotation
  split <;> rfl

theorem unquestioned_namedText {outer other : Option String} {arguments others : List String}
    (houter : outer.map Text.unquestioned = other.map Text.unquestioned)
    (harguments : arguments.map Text.unquestioned = others.map Text.unquestioned) :
    Text.unquestioned (info.namedText style outer arguments) =
      Text.unquestioned (info.namedText style.plain other others) := by
  have hqualifier : Text.unquestioned (info.qualifier style outer) =
      Text.unquestioned (info.qualifier style.plain other) := by
    unfold qualifier
    change Text.unquestioned (if !style.qualified then _ else _) =
      Text.unquestioned (if !style.qualified then _ else _)
    split
    · rfl
    · rw [Text.unquestioned_append, Text.unquestioned_append]
      congr 1
      cases outer <;> cases other <;> simp_all
  have htext : Text.unquestioned (info.argumentText style arguments) =
      Text.unquestioned (info.argumentText style.plain others) := by
    have hempty : arguments.isEmpty = others.isEmpty := by
      cases arguments <;> cases others <;> simp_all
    unfold argumentText
    rw [hempty]
    change Text.unquestioned (if !style.arguments then _ else _) =
      Text.unquestioned (if !style.arguments then _ else _)
    split
    · rfl
    · split
      · simp only [Text.unquestioned_append, Text.unquestioned_join, harguments]
      · rfl
  rw [namedText, namedText, Text.unquestioned_append, Text.unquestioned_append, hqualifier, htext,
    Text.unquestioned_append, Text.unquestioned_append]

end TypeInfo

namespace TypeSymbol

mutual

private theorem unquestioned_displayName (style : DisplayStyle) :
    (type : TypeSymbol) → Text.unquestioned (type.displayName style) =
      Text.unquestioned (type.displayName style.plain)
  | ⟨info, containing, arguments, _, _, _, _, _⟩ => by
    rw [displayName, displayName]
    exact TypeInfo.unquestioned_namedText info style
      (unquestioned_displayOuter style.ofContaining containing)
      (unquestioned_displayAll style.ofArgument arguments)

private theorem unquestioned_displayOuter (style : DisplayStyle) :
    (outer : Option TypeSymbol) → (displayOuter style outer).map Text.unquestioned =
      (displayOuter style.plain outer).map Text.unquestioned
  | none => rfl
  | some outer => by
    rw [displayOuter, displayOuter, Option.map_some, Option.map_some,
      unquestioned_displayName style outer]

private theorem unquestioned_display (style : DisplayStyle) :
    (type : TypeSymbol) → Text.unquestioned (type.display style) =
      Text.unquestioned (type.display style.plain)
  | ⟨info, containing, arguments, base, interfaces, attributes, members, element⟩ => by
    have hnamed := TypeInfo.unquestioned_namedText info style
      (unquestioned_displayOuter style.ofContaining containing)
      (unquestioned_displayAll style.ofArgument arguments)
    have helement := unquestioned_displayElement style element
    rw [display, display]
    simp only [Text.unquestioned_append, TypeInfo.unquestioned_annotation, List.append_nil]
    cases info.kind with
    | array | pointer => simp only [Text.unquestioned_append, helement]
    | parameter => rfl
    | _ =>
      cases info.special with
      | some special => rfl
      | none => exact hnamed

private theorem unquestioned_displayElement (style : DisplayStyle) :
    (element : Option TypeSymbol) → Text.unquestioned (displayElement style element) =
      Text.unquestioned (displayElement style.plain element)
  | none => rfl
  | some element => by
    rw [displayElement, displayElement, unquestioned_display style element]

private theorem unquestioned_displayAll (style : DisplayStyle) :
    (types : List TypeSymbol) → (displayAll style types).map Text.unquestioned =
      (displayAll style.plain types).map Text.unquestioned
  | [] => rfl
  | type :: types => by
    rw [displayAll, displayAll, List.map_cons, List.map_cons, unquestioned_display style type,
      unquestioned_displayAll style types]

end

/-- Whether two types are shown alike apart from question marks. -/
def IsAlike (type other : TypeSymbol) : Prop :=
  Text.unquestioned type.fullName = Text.unquestioned other.fullName

instance (type other : TypeSymbol) : Decidable (type.IsAlike other) :=
  inferInstanceAs (Decidable (_ = _))

theorem unquestioned_annotatedName (type : TypeSymbol) :
    Text.unquestioned type.annotatedName = Text.unquestioned type.fullName :=
  unquestioned_display { referenceNullability := true } type

/-- Types are alike if the full name of one is that of the other with its annotations. -/
theorem isAlike_of_fullName {type other : TypeSymbol} (h : type.fullName = other.annotatedName) :
    type.IsAlike other := by
  rw [IsAlike, h, unquestioned_annotatedName]

end TypeSymbol

end SourceGen
