import SourceGen.Compilation.Basic
import SourceGen.Proofs.Collections
import SourceGen.Proofs.Text.Split
import SourceGen.Snapshot.Type

/-! The metadata names of types. A name is put together from the namespace and from the names and
arities of the type and the types around it, with a separator of its own for each of these, so that
it can be taken apart from its end: what follows the last plus sign is the type itself. -/

namespace SourceGen

/-- Whether a type has a name of its own, and this has none of the separators in it. -/
structure TypeInfo.HasPlainName (info : TypeInfo) : Prop where
  named : info.kind ≠ .array ∧ info.kind ≠ .pointer ∧ info.kind ≠ .parameter
  dot : '.' ∉ info.name.toList
  plus : '+' ∉ info.name.toList
  backtick : '`' ∉ info.name.toList

namespace TypeSymbol

/-- Named types, nested in such types to any depth, whose names have no separators in them. -/
inductive HasPlainNames : TypeSymbol → Prop
  | outermost {type : TypeSymbol} (own : type.info.HasPlainName) (hnone : type.containing = none) :
      HasPlainNames type
  | nested {type outer : TypeSymbol} (own : type.info.HasPlainName)
      (hsome : type.containing = some outer) (h : HasPlainNames outer) : HasPlainNames type

theorem HasPlainNames.nestIn {type outer : TypeSymbol} (own : type.info.HasPlainName)
    (h : outer.HasPlainNames) : (type.nestIn outer).HasPlainNames :=
  .nested ⟨own.named, own.dot, own.plus, own.backtick⟩ rfl h

/-- The namespace that the outermost type is declared in. -/
def rootNamespace (type : TypeSymbol) : String :=
  ((type.enclosing.getLast?).getD type).info.namespaceName

/-- The names and arities of the type and the types around it, the innermost first. -/
def levels (type : TypeSymbol) : List (String × Nat) :=
  (type :: type.enclosing).map fun level => (level.info.name, level.arity)

/-- Whether two types are declared by the same names: in the same namespace, and in types of the
same names and arities. -/
structure SameDeclaration (type other : TypeSymbol) : Prop where
  rootNamespace : type.rootNamespace = other.rootNamespace
  levels : type.levels = other.levels

/-- Whether the type is in the namespace that the types around it are in. -/
def SharesNamespace (type : TypeSymbol) : Prop :=
  ∀ outer ∈ type.enclosing, outer.info.namespaceName = type.info.namespaceName

section Enclosing

variable {type outer : TypeSymbol}

theorem enclosing_outermost (h : type.containing = none) : type.enclosing = [] := by
  obtain ⟨info, containing, arguments, base, interfaces, attributes, members, element⟩ := type
  obtain rfl : containing = none := h
  rfl

theorem enclosing_nested (h : type.containing = some outer) :
    type.enclosing = outer :: outer.enclosing := by
  obtain ⟨info, containing, arguments, base, interfaces, attributes, members, element⟩ := type
  obtain rfl : containing = some outer := h
  rfl

theorem rootNamespace_outermost (h : type.containing = none) :
    type.rootNamespace = type.info.namespaceName := by
  rw [rootNamespace, enclosing_outermost h]
  rfl

theorem rootNamespace_nested (h : type.containing = some outer) :
    type.rootNamespace = outer.rootNamespace := by
  rw [rootNamespace, rootNamespace, enclosing_nested h, List.getLast?_cons]
  rfl

theorem levels_outermost (h : type.containing = none) :
    type.levels = [(type.info.name, type.arity)] := by
  rw [levels, enclosing_outermost h]
  rfl

theorem levels_nested (h : type.containing = some outer) :
    type.levels = (type.info.name, type.arity) :: outer.levels := by
  rw [levels, enclosing_nested h]
  rfl

theorem SharesNamespace.rootNamespace (h : type.SharesNamespace) :
    type.rootNamespace = type.info.namespaceName := by
  unfold TypeSymbol.rootNamespace
  cases hlast : type.enclosing.getLast? with
  | none => rfl
  | some outer => exact h outer (List.mem_of_getLast? hlast)

/-- A type that is put into another one gets the namespace of that. -/
theorem SharesNamespace.nestIn (h : outer.SharesNamespace) (type : TypeSymbol) :
    (type.nestIn outer).SharesNamespace := by
  intro around hm
  have hcontaining : (type.nestIn outer).containing = some outer := rfl
  rw [enclosing_nested hcontaining] at hm
  rcases List.mem_cons.mp hm with rfl | hm
  · rfl
  · exact h around hm

end Enclosing

section Spelling

variable {type outer other : TypeSymbol}

/-- The name and the arity of a type, as they are written in its metadata name. -/
def ownName (type : TypeSymbol) : String :=
  nameWithArity type.info.name type.arity

private theorem toList_dotted (front last : String) :
    (front ++ "." ++ last).toList = front.toList ++ '.' :: last.toList := by
  simp

private theorem toList_nested (front last : String) :
    (front ++ "+" ++ last).toList = front.toList ++ '+' :: last.toList := by
  simp

theorem fullMetadataName_outermost (own : type.info.HasPlainName) (h : type.containing = none) :
    type.fullMetadataName =
      if type.info.namespaceName.isEmpty then type.ownName
      else type.info.namespaceName ++ "." ++ type.ownName := by
  obtain ⟨info, containing, arguments, base, interfaces, attributes, members, element⟩ := type
  obtain rfl : containing = none := h
  obtain ⟨harray, hpointer, hparameter⟩ := own.named
  simp only [fullMetadataName, outerMetadataName]
  rfl

theorem fullMetadataName_nested (own : type.info.HasPlainName) (h : type.containing = some outer) :
    type.fullMetadataName = outer.fullMetadataName ++ "+" ++ type.ownName := by
  obtain ⟨info, containing, arguments, base, interfaces, attributes, members, element⟩ := type
  obtain rfl : containing = some outer := h
  obtain ⟨harray, hpointer, hparameter⟩ := own.named
  simp only [fullMetadataName, outerMetadataName]
  rfl

theorem toList_nameWithArity (name : String) (arity : Nat) :
    (nameWithArity name arity).toList =
      if arity = 0 then name.toList else name.toList ++ '`' :: (toString arity).toList := by
  unfold nameWithArity
  split
  · rfl
  · rw [String.toList_append, String.toList_append, List.append_assoc]
    rfl

theorem not_mem_nameWithArity {name : String} {c : Char} (h : c ∉ name.toList) (hbacktick : c ≠ '`')
    (hdigit : c.isDigit = false) (arity : Nat) : c ∉ (nameWithArity name arity).toList := by
  rw [toList_nameWithArity]
  split
  · exact h
  · rw [List.mem_append, List.mem_cons, not_or, not_or]
    exact ⟨h, hbacktick, Text.not_mem_toString hdigit arity⟩

/-- Behind a name without a backtick the arity can be told from it. -/
theorem nameWithArity_inj {name name' : String} {arity arity' : Nat} (h : '`' ∉ name.toList)
    (h' : '`' ∉ name'.toList) :
    nameWithArity name arity = nameWithArity name' arity' ↔ name = name' ∧ arity = arity' := by
  have hdigits : ∀ number : Nat, '`' ∉ (toString number).toList :=
    Text.not_mem_toString (by decide)
  have hmarked (text : String) (number : Nat) :
      '`' ∈ text.toList ++ '`' :: (toString number).toList :=
    List.mem_append_right _ List.mem_cons_self
  rw [← String.toList_inj, toList_nameWithArity, toList_nameWithArity]
  by_cases harity : arity = 0 <;> by_cases harity' : arity' = 0
  · rw [if_pos harity, if_pos harity', String.toList_inj, harity, harity']
    simp
  · rw [if_pos harity, if_neg harity']
    exact iff_of_false (fun heq => h (heq ▸ hmarked ..)) fun heq => harity' (heq.2 ▸ harity)
  · rw [if_neg harity, if_pos harity']
    exact iff_of_false (fun heq => h' (heq ▸ hmarked ..)) fun heq => harity (heq.2 ▸ harity')
  · rw [if_neg harity, if_neg harity', Text.append_cons_inj (hdigits _) (hdigits _),
      String.toList_inj, String.toList_inj, Text.toString_number_inj]
    simp

theorem ownName_inj (own : type.info.HasPlainName) (own' : other.info.HasPlainName) :
    type.ownName = other.ownName ↔
      (type.info.name, type.arity) = (other.info.name, other.arity) := by
  rw [ownName, ownName, nameWithArity_inj own.backtick own'.backtick, Prod.mk.injEq]

theorem dot_not_mem_ownName (own : type.info.HasPlainName) : '.' ∉ type.ownName.toList :=
  not_mem_nameWithArity own.dot (by decide) (by decide) _

theorem plus_not_mem_ownName (own : type.info.HasPlainName) : '+' ∉ type.ownName.toList :=
  not_mem_nameWithArity own.plus (by decide) (by decide) _

/-- A dot is in front of the name of a type exactly if there is a namespace, and it is the last. -/
theorem fullMetadataName_outermost_inj (own : type.info.HasPlainName)
    (own' : other.info.HasPlainName) (h : type.containing = none) (h' : other.containing = none) :
    type.fullMetadataName = other.fullMetadataName ↔
      type.info.namespaceName = other.info.namespaceName ∧ type.ownName = other.ownName := by
  have hdot := dot_not_mem_ownName own
  have hdot' := dot_not_mem_ownName own'
  rw [fullMetadataName_outermost own h, fullMetadataName_outermost own' h', ← String.toList_inj]
  by_cases hspace : type.info.namespaceName.isEmpty <;>
    by_cases hspace' : other.info.namespaceName.isEmpty
  · rw [if_pos hspace, if_pos hspace', String.toList_inj, String.isEmpty_iff.mp hspace,
      String.isEmpty_iff.mp hspace']
    simp
  · rw [if_pos hspace, if_neg hspace', toList_dotted]
    exact iff_of_false (fun heq => hdot (heq ▸ by simp)) fun heq => hspace' (heq.1 ▸ hspace)
  · rw [if_neg hspace, if_pos hspace', toList_dotted]
    exact iff_of_false (fun heq => hdot' (heq ▸ by simp)) fun heq => hspace (heq.1 ▸ hspace')
  · rw [if_neg hspace, if_neg hspace', toList_dotted, toList_dotted,
      Text.append_cons_inj hdot hdot', String.toList_inj, String.toList_inj]
    simp

theorem fullMetadataName_nested_inj {outer' : TypeSymbol} (own : type.info.HasPlainName)
    (own' : other.info.HasPlainName) (h : type.containing = some outer)
    (h' : other.containing = some outer') :
    type.fullMetadataName = other.fullMetadataName ↔
      outer.fullMetadataName = outer'.fullMetadataName ∧ type.ownName = other.ownName := by
  rw [fullMetadataName_nested own h, fullMetadataName_nested own' h', ← String.toList_inj,
    toList_nested, toList_nested,
    Text.append_cons_inj (plus_not_mem_ownName own) (plus_not_mem_ownName own'),
    String.toList_inj, String.toList_inj]
  simp

/-- Behind the last plus sign of a nested type there is no dot, and behind the last dot of any other
type there is no plus sign. -/
theorem fullMetadataName_outermost_ne_nested (own : type.info.HasPlainName)
    (own' : other.info.HasPlainName) (h : type.containing = none)
    (h' : other.containing = some outer) : type.fullMetadataName ≠ other.fullMetadataName := by
  have hplus := plus_not_mem_ownName own
  rw [fullMetadataName_outermost own h, fullMetadataName_nested own' h', ne_eq, ← String.toList_inj,
    toList_nested]
  split
  · exact fun heq => hplus (heq ▸ by simp)
  · rw [toList_dotted, Text.append_cons_inj hplus (dot_not_mem_ownName own')]
    simp

end Spelling

section Declarations

variable {type other : TypeSymbol}

theorem sameDeclaration_outermost_iff (h : type.containing = none) (h' : other.containing = none) :
    type.SameDeclaration other ↔ type.info.namespaceName = other.info.namespaceName ∧
      (type.info.name, type.arity) = (other.info.name, other.arity) := by
  constructor
  · rintro ⟨hspace, hlevels⟩
    rw [rootNamespace_outermost h, rootNamespace_outermost h'] at hspace
    rw [levels_outermost h, levels_outermost h'] at hlevels
    exact ⟨hspace, List.singleton_inj.mp hlevels⟩
  · rintro ⟨hspace, hlevel⟩
    refine ⟨?_, ?_⟩
    · rw [rootNamespace_outermost h, rootNamespace_outermost h', hspace]
    · rw [levels_outermost h, levels_outermost h', hlevel]

theorem sameDeclaration_nested_iff {outer outer' : TypeSymbol} (h : type.containing = some outer)
    (h' : other.containing = some outer') :
    type.SameDeclaration other ↔ outer.SameDeclaration outer' ∧
      (type.info.name, type.arity) = (other.info.name, other.arity) := by
  constructor
  · rintro ⟨hspace, hlevels⟩
    rw [rootNamespace_nested h, rootNamespace_nested h'] at hspace
    rw [levels_nested h, levels_nested h'] at hlevels
    obtain ⟨hlevel, hlevels⟩ := List.cons.inj hlevels
    exact ⟨⟨hspace, hlevels⟩, hlevel⟩
  · rintro ⟨⟨hspace, hlevels⟩, hlevel⟩
    refine ⟨?_, ?_⟩
    · rw [rootNamespace_nested h, rootNamespace_nested h', hspace]
    · rw [levels_nested h, levels_nested h', hlevel, hlevels]

theorem not_sameDeclaration_nested {outer : TypeSymbol} (h : type.containing = none)
    (h' : other.containing = some outer) : ¬type.SameDeclaration other := by
  rintro ⟨-, hlevels⟩
  rw [levels_outermost h, levels_nested h'] at hlevels
  exact List.cons_ne_nil _ _ (List.cons.inj hlevels).2.symm

theorem SameDeclaration.symm (h : type.SameDeclaration other) : other.SameDeclaration type :=
  ⟨h.rootNamespace.symm, h.levels.symm⟩

/-- The metadata name of a type can be taken apart into what the type is declared by. -/
theorem HasPlainNames.fullMetadataName_inj (h : type.HasPlainNames) (h' : other.HasPlainNames) :
    type.fullMetadataName = other.fullMetadataName ↔ type.SameDeclaration other := by
  induction h generalizing other with
  | outermost own hnone =>
    cases h' with
    | outermost own' hnone' =>
      rw [fullMetadataName_outermost_inj own own' hnone hnone', ownName_inj own own',
        sameDeclaration_outermost_iff hnone hnone']
    | nested own' hsome' _ =>
      exact iff_of_false (fullMetadataName_outermost_ne_nested own own' hnone hsome')
        (not_sameDeclaration_nested hnone hsome')
  | nested own hsome _ ih =>
    cases h' with
    | outermost own' hnone' =>
      exact iff_of_false (fullMetadataName_outermost_ne_nested own' own hnone' hsome).symm
        fun hsame => not_sameDeclaration_nested hnone' hsome hsame.symm
    | nested own' hsome' h' =>
      rw [fullMetadataName_nested_inj own own' hsome hsome', ih h', ownName_inj own own',
        sameDeclaration_nested_iff hsome hsome']

end Declarations

end TypeSymbol

section Registry

/-- Whether the types are known by their own metadata names. -/
def IsKeyed (known : List (String × TypeSymbol)) : Prop :=
  ∀ entry ∈ known, entry.1 = entry.2.fullMetadataName

theorem IsKeyed.append {known : List (String × TypeSymbol)} (h : IsKeyed known)
    (type : TypeSymbol) : IsKeyed (known ++ [(type.fullMetadataName, type)]) := by
  intro entry hm
  rcases List.mem_append.mp hm with hm | hm
  · exact h entry hm
  · rw [List.mem_singleton.mp hm]

mutual

private theorem register_isKeyed :
    (type : TypeSymbol) → (known : List (String × TypeSymbol)) → IsKeyed known →
      IsKeyed (type.register known)
  | ⟨info, containing, arguments, base, interfaces, attributes, members, element⟩, known, h => by
    rw [TypeSymbol.register]
    split
    · exact h
    · exact registerClasses_isKeyed attributes _ <| registerOptional_isKeyed containing _ <|
        registerAll_isKeyed interfaces _ <| registerOptional_isKeyed base _ (h.append _)

private theorem registerOptional_isKeyed :
    (type : Option TypeSymbol) → (known : List (String × TypeSymbol)) → IsKeyed known →
      IsKeyed (registerOptional known type)
  | none, _, h => h
  | some type, known, h => register_isKeyed type known h

private theorem registerAll_isKeyed :
    (types : List TypeSymbol) → (known : List (String × TypeSymbol)) → IsKeyed known →
      IsKeyed (registerAll known types)
  | [], _, h => h
  | type :: types, known, h => registerAll_isKeyed types _ (register_isKeyed type known h)

private theorem registerClasses_isKeyed :
    (attributes : List AttributeData) → (known : List (String × TypeSymbol)) → IsKeyed known →
      IsKeyed (registerClasses known attributes)
  | [], _, h => h
  | ⟨type, _, _⟩ :: attributes, known, h =>
    registerClasses_isKeyed attributes _ (register_isKeyed type known h)

end

namespace Compilation

theorem addFiles_types (types : List (Nat × TypeSymbol)) (files : List (SourceFile × Declared))
    (compilation : Compilation) :
    (files.foldl (addFile types) compilation).types = compilation.types := by
  induction files generalizing compilation with
  | nil => rfl
  | cons file rest ih => rw [List.foldl_cons, ih, addFile]

/-- A program knows its types by their metadata names. -/
theorem fullMetadataName_of_typeNamed? {input : CompilationInput} {name : String}
    {type : TypeSymbol} (h : (ofInput input).typeNamed? name = some type) :
    type.fullMetadataName = name := by
  have hkeyed : IsKeyed (ofInput input).types := by
    rw [ofInput, addFiles_types]
    exact registerAll_isKeyed _ [] (by simp [IsKeyed])
  exact (hkeyed _ (mem_of_lookup h)).symm

end Compilation

end Registry

/-- Types of the same metadata name are declared in one namespace, and in the same chain of types
with the same arities. So files that are named for types, the types that a program knows and the
markers that are looked for belong to one declaration. -/
theorem TypeSymbol.metadataName_identifies {type other : TypeSymbol} (h : type.HasPlainNames)
    (h' : other.HasPlainNames) :
    (type.fullMetadataName = other.fullMetadataName ↔ type.SameDeclaration other) ∧
    (type.SharesNamespace → other.SharesNamespace → type.SameDeclaration other →
      type.info.namespaceName = other.info.namespaceName) ∧
    (∀ ending, (Hierarchy.ofSymbol type).hint ending = (Hierarchy.ofSymbol other).hint ending →
      type.SameDeclaration other) ∧
    (∀ input, (Compilation.ofInput input).typeNamed? other.fullMetadataName = some type →
      type.SameDeclaration other) ∧
    ∀ marker, (type.fullMetadataName == marker) = true → (other.fullMetadataName == marker) = true →
      type.SameDeclaration other := by
  have hinj := h.fullMetadataName_inj h'
  refine ⟨hinj, fun hshares hshares' hsame => ?_, fun ending hhint => ?_, fun input hfound => ?_,
    fun marker hmarker hmarker' => ?_⟩
  · rw [← hshares.rootNamespace, ← hshares'.rootNamespace, hsame.rootNamespace]
  · exact hinj.mp (String.append_left_inj ending |>.mp hhint)
  · exact hinj.mp (Compilation.fullMetadataName_of_typeNamed? hfound)
  · exact hinj.mp ((eq_of_beq hmarker).trans (eq_of_beq hmarker').symm)

/-- A class with parameters in another one. -/
private def nestedMap : TypeSymbol :=
  (TypeSymbol.ofInfo { name := "Map", kind := .classType, parameters := ["K", "V"] }).nestIn
    (.ofInfo { name := "Box", kind := .classType, namespaceName := "App", parameters := ["T"] })

/-- The class of the same name and arity in a namespace that is named for the other one. -/
private def plainMap : TypeSymbol :=
  .ofInfo
    { name := "Map", kind := .classType, namespaceName := "App.Box", parameters := ["K", "V"] }

/-- A nested class and what is made of it with arguments have the same name, and the class of a
namespace has another one. -/
theorem TypeSymbol.metadataName_identifies_map :
    nestedMap.HasPlainNames ∧ plainMap.HasPlainNames ∧
      nestedMap.fullMetadataName = "App.Box`1+Map`2" ∧
      plainMap.fullMetadataName = "App.Box.Map`2" ∧ ¬nestedMap.SameDeclaration plainMap ∧
      nestedMap.SharesNamespace ∧
      nestedMap.SameDeclaration (nestedMap.construct [.special .int32, .special .string]) := by
  have hnested : nestedMap.HasPlainNames :=
    .nestIn ⟨by decide, by decide, by decide, by decide⟩
      (.outermost ⟨by decide, by decide, by decide, by decide⟩ rfl)
  have hmade : (nestedMap.construct [.special .int32, .special .string]).HasPlainNames :=
    .nested ⟨by decide, by decide, by decide, by decide⟩ rfl
      (.outermost ⟨by decide, by decide, by decide, by decide⟩ rfl)
  have hplain : plainMap.HasPlainNames :=
    .outermost ⟨by decide, by decide, by decide, by decide⟩ rfl
  have hname : nestedMap.fullMetadataName = "App.Box`1+Map`2" := by decide +kernel
  have hother : plainMap.fullMetadataName = "App.Box.Map`2" := by decide +kernel
  refine ⟨hnested, hplain, hname, hother, fun hsame => ?_, .nestIn (by intro _ h; cases h) _,
    (metadataName_identifies hnested hmade).1.mp (by decide +kernel)⟩
  have heq := (metadataName_identifies hnested hplain).1.mpr hsame
  rw [hname, hother] at heq
  exact absurd heq (by decide)

end SourceGen
