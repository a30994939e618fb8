import SourceGen.Generator.PropertyValues
import SourceGen.Proofs.Compilation.Candidates
import SourceGen.Proofs.Snapshot.Attribute

/-! The method that reads a property by its name. Its switch has an arm for every public property of
the type in the order of their declarations, also for one that has no getter and for an indexer, of
which neither can be read by name. -/

namespace SourceGen

/-- Whether the value of a property can be read by its name. -/
def PropertySymbol.isReadable (property : PropertySymbol) : Bool :=
  !property.isIndexer && property.getter.isSome

/-- The public properties of a type itself. -/
def TypeSymbol.publicProperties (type : TypeSymbol) : List PropertySymbol :=
  type.properties.filter (·.accessibility == .publicAccess)

/-- Whether a type lists the interface of types whose properties are read by name. -/
def TypeSymbol.listsValues (type : TypeSymbol) : Bool :=
  type.writesBases && type.interfaces.any (·.fullMetadataName == Names.propertyValuesProvider)

/-- The arm that gives the value of what has a name: `nameof(name) => name`. -/
def Arm.reads (name : String) : Arm :=
  .case (.constant (.nameOf name)) (.ident name)

theorem Member.prependTrivia_injective (trivia : Trivia) :
    Function.Injective (Member.prependTrivia trivia) := by
  rintro ⟨⟨⟨lines⟩, attributes, modifiers, anchor⟩, declaration⟩
    ⟨⟨⟨lines'⟩, attributes', modifiers', anchor'⟩, declaration'⟩ h
  obtain ⟨⟨htrivia, rfl, rfl, rfl⟩, rfl⟩ :
      (trivia ++ ⟨lines⟩ = trivia ++ ⟨lines'⟩ ∧ attributes = attributes' ∧ modifiers = modifiers' ∧
        anchor = anchor') ∧ declaration = declaration' := by
    simpa [prependTrivia] using h
  have hlines : trivia.lines ++ lines = trivia.lines ++ lines' := congrArg Trivia.lines htrivia
  rw [List.append_cancel_left hlines]

/-- The members that are added to a type can be told from the file. -/
theorem Hierarchy.toUnit_injective (hierarchy : Hierarchy) (bases : List TypeExpr) :
    Function.Injective fun members => hierarchy.toUnit members bases := by
  -- each type around the innermost one has that one for its only member
  have hfold : ∀ outer : List TypeSnapshot, Function.Injective fun inner : Member =>
      outer.foldl (fun member outer => outer.part [] [member]) inner := by
    intro outer
    induction outer with
    | nil => exact Function.injective_id
    | cons type outer ih =>
      intro inner other h
      simpa [TypeSnapshot.part] using ih h
  intro members others h
  have hmembers := congrArg CompilationUnit.members h
  have hinner := hfold _ (Member.prependTrivia_injective _ (List.singleton_inj.mp hmembers))
  simpa [TypeSnapshot.part] using hinner

namespace PropertyValuesContext

variable {context : PropertyValuesContext} {type : TypeSymbol} {input : CompilationInput}

theorem ofSymbol_eq_ok_iff :
    ofSymbol type = .ok context ↔ context.hierarchy = .ofSymbol type ∧
      List.Forall₂ (fun property snapshot => PropertySnapshot.ofSymbol property = .ok snapshot)
        type.publicProperties context.properties := by
  rw [ofSymbol, ← collectAll_eq_ok_iff, TypeSymbol.publicProperties]
  obtain ⟨hierarchy, properties⟩ := context
  cases collectAll PropertySnapshot.ofSymbol
      (type.properties.filter (·.accessibility == .publicAccess)) with
  | error failure => simp [Except.map]
  | ok collected => simp [Except.map, eq_comm (b := hierarchy)]

/-- Whether a declared type is collected as a context. -/
structure IsCollected (input : CompilationInput) (type : TypeSymbol)
    (context : PropertyValuesContext) : Prop where
  declared : type ∈ input.declaredTypes
  lists : type.listsValues = true
  read : ofSymbol type = .ok context

/-- The contexts of a program are those of its types that list the interface. -/
theorem mem_contexts_iff :
    context ∈ propertyValuesStage.contexts (.ofInput input) ↔
      ∃ type, IsCollected input type context := by
  have hread : ofCandidate = fun candidate => (candidate.symbol.bind Symbol.type?).bind fun type =>
      if type.interfaces.any (·.fullMetadataName == Names.propertyValuesProvider) then
        (ofSymbol type).toOption
      else none := rfl
  simp only [propertyValuesStage, mem_distinct, hread, Compilation.withShape_filterMap,
    List.mem_flatMap]
  constructor
  · rintro ⟨type, hm, hc⟩
    split at hc
    · next hbases =>
      split at hc
      · next hlists =>
        refine ⟨type, hm, by simp [TypeSymbol.listsValues, hbases, hlists], ?_⟩
        cases h : ofSymbol type <;> simp_all [Except.toOption]
      · simp at hc
    · simp at hc
  · rintro ⟨type, hm, hlists, hread⟩
    obtain ⟨hbases, hlists⟩ := Bool.and_eq_true_iff.mp hlists
    exact ⟨type, hm, by simp [hbases, hlists, hread, Except.toOption]⟩

/-- The arms in front of the last one are for the public properties of the type. -/
theorem arms_eq (h : ofSymbol type = .ok context) :
    context.arms =
      type.publicProperties.map (fun property => .reads property.name) ++
        [.case .discard .default] := by
  have hnames : context.properties.map arm =
      type.publicProperties.map fun property => .reads property.name := by
    refine List.forall₂_eq_eq_eq ▸ ?_
    rw [List.forall₂_map_left_iff, List.forall₂_map_right_iff]
    refine (ofSymbol_eq_ok_iff.mp h).2.flip.imp fun snapshot property hproperty => ?_
    rw [arm, (PropertySnapshot.shows_of_ofSymbol hproperty).name]
    rfl
  rw [arms, hnames]

/-- Whether the file of a context reads by name with a switch of these arms, and no other ones but
the one for names that are left. -/
def ReadsByName (context : PropertyValuesContext) (arms : List Arm) : Prop :=
  ∃ hint, propertyValuesStage.units context =
    [(hint, context.hierarchy.toUnit
      [.method [.publicAccess] TypeExpr.object.nullable "GetPropertyValue"
        [.simple .string "propertyName"]
        [.result (.switch (.ident "propertyName") (arms ++ [.case .discard .default]))]]
      [])]

theorem readsByName_iff {arms : List Arm} :
    context.ReadsByName arms ↔ context.arms = arms ++ [.case .discard .default] := by
  constructor
  · rintro ⟨hint, hunits⟩
    have hunit := (Prod.ext_iff.mp (List.singleton_inj.mp hunits)).2
    simpa [Member.method] using context.hierarchy.toUnit_injective _ hunit
  · rintro harms
    rw [ReadsByName, ← harms]
    exact ⟨_, rfl⟩

/-- The arms of a type that is collected are for its public properties in their order. They are for
those that can be read by name, one for each, exactly if every public property is one of these. -/
theorem propertyValuesStage_reads_iff (h : IsCollected input type context) :
    context ∈ propertyValuesStage.contexts (.ofInput input) ∧
      ∃ arms, context.ReadsByName arms ∧
        arms = type.publicProperties.map (fun property => .reads property.name) ∧
        (arms = (type.publicProperties.filter (·.isReadable)).map
            (fun property => .reads property.name) ↔
          ∀ property ∈ type.publicProperties, property.isReadable = true) := by
  refine ⟨mem_contexts_iff.mpr ⟨type, h⟩, _, readsByName_iff.mpr (arms_eq h.read), rfl, ?_⟩
  · rw [← List.filter_eq_self]
    refine ⟨fun harms => ?_, fun hall => by rw [hall]⟩
    refine (List.filter_sublist).eq_of_length ?_
    simpa using (congrArg List.length harms).symm

section Views

/-- A class with properties that lists the interface. -/
private def view (properties : List PropertySymbol) : TypeSymbol :=
  { TypeSymbol.named .classType "App" "View" with
    interfaces := [.named .interfaceType "Snap.Hutao.UI.Xaml.Data" "IPropertyValuesProvider"]
    members := properties.map .property }

private def program (properties : List PropertySymbol) : CompilationInput :=
  { assemblyName := "App", declarations := [("A.cs", [view properties])] }

private def name : PropertySymbol := .named "Name" (.special .string)

/-- A property that can only be set. -/
private def secret : PropertySymbol :=
  { PropertySymbol.named "Secret" (.special .string) with getter := none }

private theorem exists_context (properties : List PropertySymbol)
    (h : (collectAll PropertySnapshot.ofSymbol (view properties).publicProperties).isOk = true) :
    ∃ context, IsCollected (program properties) (view properties) context := by
  cases hread : collectAll PropertySnapshot.ofSymbol (view properties).publicProperties with
  | error failure => simp [hread, Except.isOk, Except.toBool] at h
  | ok snapshots =>
    refine ⟨⟨.ofSymbol (view properties), snapshots⟩, List.mem_singleton_self _, rfl, ?_⟩
    exact ofSymbol_eq_ok_iff.mpr ⟨rfl, collectAll_eq_ok_iff.mp hread⟩

/-- A class with one property that can be read and one that is not public. -/
theorem propertyValuesStage_reads_view :
    let hidden := (PropertySymbol.named "Level" (.special .int32)).withAccessibility .privateAccess
    ∃ context ∈ propertyValuesStage.contexts (.ofInput (program [name, hidden])),
      context.ReadsByName [.reads "Name"] := by
  intro hidden
  obtain ⟨context, h⟩ := exists_context [name, hidden] rfl
  obtain ⟨hc, arms, hreads, -, hiff⟩ := propertyValuesStage_reads_iff h
  obtain rfl := hiff.mpr (by decide)
  exact ⟨context, hc, hreads⟩

/-- A property without a getter and an indexer have arms too. -/
theorem propertyValuesStage_reads_unreadable :
    ¬ ∀ (input : CompilationInput) (type : TypeSymbol) (context : PropertyValuesContext),
      IsCollected input type context →
        context.ReadsByName ((type.publicProperties.filter (·.isReadable)).map
          fun property => .reads property.name) := by
  intro h
  obtain ⟨context, hcollected⟩ := exists_context [name, secret, .indexer (.special .string)
    ⟨"index", .special .int32⟩] rfl
  have hreads := readsByName_iff.mp (h _ _ _ hcollected)
  rw [arms_eq hcollected.read] at hreads
  exact absurd (congrArg List.length hreads) (by decide)

end Views

end PropertyValuesContext

end SourceGen
