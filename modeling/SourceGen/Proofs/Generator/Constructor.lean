import SourceGen.Proofs.Generator.Candidates
import SourceGen.Proofs.Snapshot.Attribute
import SourceGen.Proofs.Symbol.Annotation

/-! The bodies of constructors that are completed. They set each member once: from the parameter of
its type if that is the only one and shows no annotated reference, otherwise from the provider. -/

namespace SourceGen

/-- The member of the object at hand that a statement sets, and its value. -/
def Stmt.memberSet? : Stmt → Option (String × Expr)
  | .expression (.assign (.member (.word "this") name) .equal value) => some (name, value)
  | _ => none

/-- A member that the constructor of its class has to set. -/
structure SetMember where
  name : String
  type : TypeSymbol
  attributes : List AttributeData

namespace SetMember

def ofField (field : FieldSymbol) : SetMember :=
  ⟨field.name, field.type, field.attributes⟩

def ofProperty (property : PropertySymbol) : SetMember :=
  ⟨property.name, property.type, property.attributes⟩

/-- The fields of a class to set, and behind them its properties. -/
def all (type : TypeSymbol) : List SetMember :=
  ((type.fields.filter ConstructorField.accepts).filter fun field => !field.hasInitializer).map
      ofField ++
    (type.properties.filter ConstructorContext.acceptsProperty).map ofProperty

variable (provider : String) (parameters : List ParameterSymbol) (member : SetMember)

/-- The key that a member is resolved by. -/
def key? : Option ConstantValue :=
  (member.attributes.find? (·.type.fullMetadataName == Names.fromKeyedServicesAttribute)).bind
    (·.arguments.head?)

/-- Whether a member is a client for web requests. -/
def IsClient : Prop :=
  Text.unquestioned member.type.fullName = Text.unquestioned (Names.global Names.httpClient)

instance : Decidable member.IsClient :=
  inferInstanceAs (Decidable (_ = _))

/-- The parameters of the type of a member, with any annotations. -/
def alike : List ParameterSymbol :=
  parameters.filter fun parameter => parameter.type.IsAlike member.type

/-- Whether a parameter is the only one of the type of a member, and has its annotations. -/
def IsOnly (parameter : ParameterSymbol) : Prop :=
  member.alike parameters = [parameter] ∧
    parameter.type.annotatedName = member.type.annotatedName

/-- Whether a value is resolved from a provider, by the key of a member if there is one. -/
def IsResolved (value : Expr) : Prop :=
  match member.key? with
  | some key => ∃ constant, Constant.ofValue key = .ok constant ∧
      value = .requiredKeyedService (.ident provider) member.type.written constant.toExpr
  | none => value = .requiredService (.ident provider) member.type.written

/-- Whether a member is set as it has to be. A parameter whose type shows an annotated reference is
passed over. -/
structure IsSet (assigned : String × Expr) : Prop where
  name : assigned.1 = member.name
  parameter : ∀ parameter, ¬ member.IsClient → member.IsOnly parameters parameter →
    if parameter.type.fullName = parameter.type.annotatedName then
      assigned.2 = .ident parameter.name
    else member.IsResolved provider assigned.2
  resolved : ¬ member.IsClient → member.alike parameters = [] →
    member.IsResolved provider assigned.2

end SetMember

namespace ConstructorContext

variable {context : ConstructorContext}

/-- What a constructor is completed by, as a part of its class. -/
structure Completes (context : ConstructorContext) (type : TypeSymbol) (constructor : MethodSymbol) :
    Prop where
  hierarchy : context.hierarchy = .ofSymbol type
  parameters : context.parameters = constructor.parameters.map ParameterSnapshot.ofSymbol
  provider : ∃ provider, constructor.parameters.filter
      (·.type.fullMetadataName == Names.serviceProvider) = [provider] ∧
    context.provider = provider.name
  fields : List.Forall₂ (fun field snapshot => ConstructorField.ofSymbol field = .ok snapshot)
    (type.fields.filter ConstructorField.accepts) context.fields
  properties : List.Forall₂ (fun property snapshot =>
      PropertySnapshot.ofSymbol property = .ok snapshot)
    (type.properties.filter acceptsProperty) context.properties

/-- The only parameter with a property. -/
private theorem onlyParameter?_eq (parameters : List ParameterSymbol)
    (accepts : ParameterSnapshot → Bool) :
    onlyParameter? (parameters.map ParameterSnapshot.ofSymbol) accepts =
      match parameters.filter (accepts ∘ ParameterSnapshot.ofSymbol) with
      | [parameter] => some parameter.name
      | _ => none := by
  rw [onlyParameter?, List.filter_map]
  cases parameters.filter (accepts ∘ ParameterSnapshot.ofSymbol) with
  | nil => rfl
  | cons first rest => cases rest <;> rfl

theorem completes_of_ofSymbols {type : TypeSymbol} {constructor : MethodSymbol}
    {marker : AttributeData} (h : ofSymbols type constructor marker = some context) :
    context.Completes type constructor := by
  unfold ofSymbols at h
  dsimp only at h
  split at h
  · next marker provider fields properties _ hprovider hfields hproperties =>
    obtain rfl := Option.some.inj h
    refine ⟨rfl, rfl, ?_, collectAll_eq_ok_iff.mp hfields, collectAll_eq_ok_iff.mp hproperties⟩
    rw [onlyParameter?_eq] at hprovider
    split at hprovider
    · next parameter hparameter =>
      exact ⟨parameter, hparameter, (Option.some.inj hprovider).symm⟩
    · simp at hprovider
  · simp at h

section Values

variable {type : TypeSymbol} {constructor : MethodSymbol} {member : SetMember}
  {snapshots : List AttributeSnapshot}

/-- What is resolved from the provider, by a key if there is one. -/
def resolution (context : ConstructorContext) (member : SetMember) : Option Constant → Expr
  | some key => .requiredKeyedService (.ident context.provider) member.type.written key.toExpr
  | none => .requiredService (.ident context.provider) member.type.written

theorem isResolved_resolution (h : AttributeSnapshot.ofAll member.attributes = .ok snapshots) :
    member.IsResolved context.provider (context.resolution member
      ((AttributeSnapshot.find? snapshots Names.fromKeyedServicesAttribute).bind
        (·.arguments.head?))) := by
  have hkey := AttributeSnapshot.find?_first h Names.fromKeyedServicesAttribute
  rw [← SetMember.key?] at hkey
  rw [SetMember.IsResolved]
  generalize member.key? = key at hkey ⊢
  generalize (AttributeSnapshot.find? snapshots Names.fromKeyedServicesAttribute).bind
    (·.arguments.head?) = constant at hkey ⊢
  cases hkey with
  | none => rfl
  | some hconstant => exact ⟨_, hconstant, rfl⟩

/-- The parameters whose type is written as that of a member are among those of its type. -/
private theorem filter_fullName (parameters : List ParameterSymbol) :
    parameters.filter (·.type.fullName == member.type.annotatedName) =
      (member.alike parameters).filter (·.type.fullName == member.type.annotatedName) := by
  rw [SetMember.alike, List.filter_filter]
  refine List.filter_congr fun parameter _ => ?_
  by_cases hname : parameter.type.fullName = member.type.annotatedName
  · simp [hname, TypeSymbol.isAlike_of_fullName hname]
  · simp [hname]

/-- The value of a member that is no client: the only parameter whose type is written as its own, or
a service. -/
private theorem memberValue_eq (h : context.Completes type constructor)
    (hclient : ¬ member.IsClient) (keyed : Option AttributeSnapshot) :
    context.memberValue member.type.annotatedName keyed =
      match (member.alike constructor.parameters).filter
          (·.type.fullName == member.type.annotatedName) with
      | [parameter] => .ident parameter.name
      | _ => context.resolution member (keyed.bind (·.arguments.head?)) := by
  have hname : member.type.annotatedName ≠ Names.global Names.httpClient := by
    intro hname
    rw [SetMember.IsClient, ← TypeSymbol.unquestioned_annotatedName, hname] at hclient
    exact hclient rfl
  have hfilter : constructor.parameters.filter
      ((·.typeName == member.type.annotatedName) ∘ ParameterSnapshot.ofSymbol) =
        (member.alike constructor.parameters).filter
          (·.type.fullName == member.type.annotatedName) :=
    filter_fullName constructor.parameters
  rw [memberValue, if_neg hname, h.parameters, onlyParameter?_eq, hfilter]
  generalize (member.alike constructor.parameters).filter
    (·.type.fullName == member.type.annotatedName) = named
  rcases named with _ | ⟨first, _ | ⟨second, rest⟩⟩
  · cases keyed.bind (·.arguments.head?) <;> rfl
  · rfl
  · cases keyed.bind (·.arguments.head?) <;> rfl

/-- A member is set to its value. -/
theorem isSet_memberValue (h : context.Completes type constructor)
    (hshown : AttributeSnapshot.ofAll member.attributes = .ok snapshots) :
    member.IsSet context.provider constructor.parameters
      (member.name, context.memberValue member.type.annotatedName
        (AttributeSnapshot.find? snapshots Names.fromKeyedServicesAttribute)) where
  name := rfl
  parameter := by
    rintro parameter hclient ⟨halike, hannotated⟩
    rw [memberValue_eq h hclient, halike, ← hannotated, List.filter_singleton]
    by_cases hplain : parameter.type.fullName = parameter.type.annotatedName
    · simp [hplain]
    · rw [if_neg hplain, beq_false_of_ne hplain]
      exact isResolved_resolution hshown
  resolved hclient halike := by
    rw [memberValue_eq h hclient, halike]
    exact isResolved_resolution hshown

end Values

section Body

variable {type : TypeSymbol} {constructor : MethodSymbol}

/-- Each field without an initializer is set. -/
private theorem fields_set (h : context.Completes type constructor) {fields : List FieldSymbol}
    {snapshots : List ConstructorField}
    (hfields : List.Forall₂ (fun field snapshot => ConstructorField.ofSymbol field = .ok snapshot)
      fields snapshots) :
    List.Forall₂ (SetMember.IsSet context.provider constructor.parameters)
      ((fields.filter fun field => !field.hasInitializer).map .ofField)
      ((snapshots.map context.setField).filterMap Stmt.memberSet?) := by
  induction hfields with
  | nil => exact .nil
  | @cons field snapshot fields snapshots hfield _ ih =>
    obtain ⟨shown, hshown, rfl⟩ : ∃ shown, AttributeSnapshot.ofAll field.attributes = .ok shown ∧
        snapshot = ⟨field.hasInitializer,
          ⟨field.name, field.type.fullName, field.type.annotatedName, shown⟩⟩ := by
      unfold ConstructorField.ofSymbol FieldSnapshot.ofSymbol at hfield
      cases hshown : AttributeSnapshot.ofAll field.attributes with
      | error failure => simp [hshown, Except.map] at hfield
      | ok shown => exact ⟨shown, rfl, by simpa [hshown, Except.map, eq_comm] using hfield⟩
    have hset : (SetMember.ofField field).IsSet context.provider constructor.parameters _ :=
      isSet_memberValue h hshown
    rw [List.filter_cons, List.map_cons]
    cases field.hasInitializer with
    | true => exact ih
    | false => exact .cons hset ih

/-- Each property is set. -/
private theorem properties_set (h : context.Completes type constructor)
    {properties : List PropertySymbol} {snapshots : List PropertySnapshot}
    (hproperties : List.Forall₂ (fun property snapshot =>
      PropertySnapshot.ofSymbol property = .ok snapshot) properties snapshots) :
    List.Forall₂ (SetMember.IsSet context.provider constructor.parameters)
      (properties.map .ofProperty)
      ((snapshots.map fun property => context.setMember property.name property.annotatedTypeName
        property.attributes).filterMap Stmt.memberSet?) := by
  induction hproperties with
  | nil => exact .nil
  | @cons property snapshot properties snapshots hproperty _ ih =>
    have hshows := PropertySnapshot.shows_of_ofSymbol hproperty
    have hset : (SetMember.ofProperty property).IsSet context.provider constructor.parameters _ :=
      isSet_memberValue h hshows.attributes
    rw [List.map_cons, List.map_cons, hshows.name, hshows.annotatedTypeName]
    exact .cons hset ih

/-- Between its hooks a constructor sets each member of its class that it has to set, once and in the
order of their declarations, and no other. -/
theorem statements_set (h : context.Completes type constructor) :
    ∃ body, context.statements =
        context.callHook "PreConstruct" :: body ++ [context.callHook "PostConstruct"] ∧
      List.Forall₂ (SetMember.IsSet context.provider constructor.parameters) (SetMember.all type)
        (body.filterMap Stmt.memberSet?) := by
  let fields := context.fields.map context.setField
  let properties := context.properties.map fun property =>
    context.setMember property.name property.annotatedTypeName property.attributes
  let messages := context.messages.map context.register
  let component : List Stmt :=
    if context.initializesComponent then
      [.expression ((Expr.ident "InitializeComponent").call [])]
    else []
  have hmessages : messages.filterMap Stmt.memberSet? = [] := by
    rw [List.filterMap_map, List.filterMap_eq_nil_iff]
    exact fun _ _ => rfl
  have hcomponent : component.filterMap Stmt.memberSet? = [] := by
    unfold component
    split <;> rfl
  refine ⟨fields ++ properties ++ messages ++ component, rfl, ?_⟩
  rw [List.filterMap_append, List.filterMap_append, List.filterMap_append, hmessages, hcomponent,
    List.append_nil, List.append_nil]
  exact List.rel_append (fields_set h h.fields) (properties_set h h.properties)

end Body

section Stage

variable {input : CompilationInput}

/-- What is read from a marked method, which has to be a constructor. -/
private theorem read_method (type : TypeSymbol) (method : MethodSymbol) :
    (candidate? Names.generatedConstructorAttribute (· == .constructorDeclaration) (some type)
        (Symbol.method method).declarationKind (.method method)).bind ofCandidate = some context ↔
      method.kind = .constructor ∧ ∃ marker rest,
        method.attributes.filter
          (·.type.fullMetadataName == Names.generatedConstructorAttribute) = marker :: rest ∧
        ofSymbols type method marker = some context := by
  cases hkind : method.kind with
  | ordinary => simp [candidate?, Symbol.declarationKind, hkind]
  | constructor =>
    have hdeclared : (Symbol.method method).declarationKind = .constructorDeclaration := by
      rw [Symbol.declarationKind, hkind]
    rw [hdeclared, candidate?_declared rfl, Symbol.attributes]
    cases method.attributes.filter
        (·.type.fullMetadataName == Names.generatedConstructorAttribute) with
    | nil => simp
    | cons marker rest => simp [ofCandidate]

/-- The marked constructors of a program that are completed. -/
theorem mem_contexts_iff :
    context ∈ constructorStage.contexts (.ofInput input) ↔
      ∃ type ∈ input.declaredTypes, type.info.kind ≠ .enumType ∧
        ∃ constructor ∈ type.methods, constructor.kind = .constructor ∧ ∃ marker rest,
          constructor.attributes.filter
            (·.type.fullMetadataName == Names.generatedConstructorAttribute) = marker :: rest ∧
          ofSymbols type constructor marker = some context := by
  have hread : ∀ candidate : AttributeCandidate, candidate.symbol.method? = none →
      ofCandidate candidate = none := by
    rintro ⟨file, span, symbol, attributes, containing⟩ hsymbol
    cases symbol with
    | method method => simp [Symbol.method?] at hsymbol
    | type | field | property => rfl
  have hcontexts : constructorStage.contexts (.ofInput input) =
      input.declaredTypes.flatMap fun type =>
        if type.info.kind = .enumType then []
        else type.methods.filterMap fun method =>
          (candidate? Names.generatedConstructorAttribute (· == .constructorDeclaration) (some type)
            (Symbol.method method).declarationKind (.method method)).bind ofCandidate := by
    refine (Compilation.withAttribute_filterMap input _ ofCandidate_ignoresPlace).trans ?_
    exact List.flatMap_congr fun type _ => type.filterMap_candidates_methods hread
  rw [hcontexts, List.mem_flatMap]
  refine exists_congr fun type => and_congr_right fun _ => ?_
  by_cases hkind : type.info.kind = .enumType
  · simp [hkind]
  · simp only [hkind, if_false, List.mem_filterMap, read_method, ne_eq, not_false_eq_true, true_and]

/-- The constructor that a file completes sets, between its hooks, each member of its class that it
has to set: once, the fields before the properties, and both in the order of their declarations. -/
theorem constructorStage_sets (hc : context ∈ constructorStage.contexts (.ofInput input)) :
    ∃ type ∈ input.declaredTypes, ∃ constructor ∈ type.methods,
      constructor.kind = .constructor ∧ context.Completes type constructor ∧
      ∃ header base body others,
        constructorStage.units context =
          [(context.hierarchy.hint ".g.cs", context.hierarchy.toUnit
            (.declare header (.constructor type.info.name
              (context.parameters.map ParameterSnapshot.written) base (.block context.statements)) ::
                others) [])] ∧
        context.statements =
          context.callHook "PreConstruct" :: body ++ [context.callHook "PostConstruct"] ∧
        List.Forall₂ (SetMember.IsSet context.provider constructor.parameters)
          (SetMember.all type) (body.filterMap Stmt.memberSet?) := by
  obtain ⟨type, htype, -, constructor, hconstructor, hkind, marker, rest, -, hread⟩ :=
    mem_contexts_iff.mp hc
  have h := completes_of_ofSymbols hread
  obtain ⟨body, hbody, hset⟩ := statements_set h
  have hname : context.hierarchy.name = type.info.name := by rw [h.hierarchy]; rfl
  refine ⟨type, htype, constructor, hconstructor, hkind, h,
    { modifiers := context.accessibility.modifiers ++ [.partialDeclaration] },
    if context.callsBase then some [.positional context.providerExpr] else none, body,
    context.properties.map propertyMember ++
      [hookMember "PreConstruct", hookMember "PostConstruct"], ?_, hbody, hset⟩
  rw [← hname]
  rfl

/-- The marker of a constructor, and a constructor with a parameter for a title. -/
private def marker : AttributeData :=
  ⟨.named .classType "Snap.Hutao.Core.Annotation" "GeneratedConstructorAttribute", [], []⟩

private def titled (type : TypeSymbol) : MethodSymbol :=
  { MethodSymbol.constructor "Page" with
    parameters :=
      [⟨"serviceProvider", .named .interfaceType "System" "IServiceProvider"⟩, ⟨"title", type⟩]
    isPartialDefinition := true
    attributes := [marker] }

/-- A class with a field for a title. -/
private def page (type : TypeSymbol) : TypeSymbol :=
  { TypeSymbol.named .classType "App" "Page" with
    members :=
      [.field { FieldSymbol.named "title" type with isReadOnly := true }, .method (titled type)] }

private def program (type : TypeSymbol) : CompilationInput :=
  { assemblyName := "App", declarations := [("A.cs", [page type])] }

private theorem exists_context (type : TypeSymbol)
    (h : (ofSymbols (page type) (titled type) marker).isSome = true) :
    ∃ context, context ∈ constructorStage.contexts (.ofInput (program type)) := by
  obtain ⟨context, hcontext⟩ := Option.isSome_iff_exists.mp h
  have hkind : (page type).info.kind ≠ .enumType := by
    simp [page, TypeSymbol.named, TypeSymbol.ofInfo]
  exact ⟨context, mem_contexts_iff.mpr ⟨page type, List.mem_singleton_self _, hkind, titled type,
    List.mem_singleton_self _, rfl, marker, [], rfl, hcontext⟩⟩

private theorem isOnly_title {type : TypeSymbol}
    (h : ¬ (TypeSymbol.named .interfaceType "System" "IServiceProvider").IsAlike type) :
    SetMember.IsOnly (titled type).parameters ⟨"title", type, []⟩ ⟨"title", type⟩ := by
  refine ⟨?_, rfl⟩
  have hself : type.IsAlike type := rfl
  simp [SetMember.alike, titled, h, hself]

/-- The title is the only member of its class. -/
private theorem title_set {type : TypeSymbol} {provider : String}
    {parameters : List ParameterSymbol} {assigned : List (String × Expr)}
    (h : List.Forall₂ (SetMember.IsSet provider parameters) (SetMember.all (page type)) assigned) :
    ∃ value, assigned = [("title", value)] ∧
      SetMember.IsSet provider parameters ⟨"title", type, []⟩ ("title", value) := by
  obtain ⟨⟨name, value⟩, rest, hset, hrest, rfl⟩ := List.forall₂_cons_left_iff.mp h
  obtain rfl := List.forall₂_nil_left_iff.mp hrest
  obtain rfl : name = "title" := hset.name
  exact ⟨value, rfl, hset⟩

/-- A field of a plain type. -/
theorem constructorStage_sets_title :
    ∃ context ∈ constructorStage.contexts (.ofInput (program (.special .string))), ∃ body,
      context.statements =
        context.callHook "PreConstruct" :: body ++ [context.callHook "PostConstruct"] ∧
      body.filterMap Stmt.memberSet? = [("title", .ident "title")] := by
  obtain ⟨context, hc⟩ := exists_context (.special .string) rfl
  obtain ⟨type, htype, constructor, hconstructor, -, -, -, -, body, -, -, hbody, hset⟩ :=
    constructorStage_sets hc
  obtain rfl := List.mem_singleton.mp htype
  obtain rfl := List.mem_singleton.mp hconstructor
  obtain ⟨value, hvalue, hset⟩ := title_set hset
  have hparameter := hset.parameter _ (by decide) (isOnly_title (by decide))
  rw [if_pos (by decide)] at hparameter
  exact ⟨context, hc, body, hbody, hparameter ▸ hvalue⟩

/-- A field of an annotated reference type is not set from the parameter of the same type. -/
theorem constructorStage_passes_over :
    ¬ ∀ (input : CompilationInput) (context : ConstructorContext),
      context ∈ constructorStage.contexts (.ofInput input) →
      ∃ type ∈ input.declaredTypes, ∃ constructor ∈ type.methods,
        context.Completes type constructor ∧
        ∀ member ∈ SetMember.all type, ¬ member.IsClient →
          ∀ parameter, member.IsOnly constructor.parameters parameter →
            (member.name, .ident parameter.name) ∈
              context.statements.filterMap Stmt.memberSet? := by
  intro h
  let string := (TypeSymbol.special .string).annotated
  obtain ⟨context, hc⟩ := exists_context string rfl
  obtain ⟨type, htype, constructor, hconstructor, hcompletes, hmembers⟩ := h (program string) _ hc
  obtain rfl := List.mem_singleton.mp htype
  obtain rfl := List.mem_singleton.mp hconstructor
  obtain ⟨body, hbody, hset⟩ := statements_set hcompletes
  obtain ⟨value, hvalue, hset⟩ := title_set hset
  have hclient : ¬ SetMember.IsClient ⟨"title", string, []⟩ := by decide
  have honly := isOnly_title (show ¬ TypeSymbol.IsAlike _ string by decide)
  -- the parameter is of the annotated type, but its full name is that of the plain one
  have hresolved := hset.parameter _ hclient honly
  rw [if_neg (by decide)] at hresolved
  have hassigned : context.statements.filterMap Stmt.memberSet? = [("title", value)] := by
    rw [hbody, List.filterMap_append, List.filterMap_cons_none rfl, hvalue]
    rfl
  have hmember := hmembers ⟨"title", string, []⟩ (List.mem_singleton_self _) hclient _ honly
  rw [hassigned, List.mem_singleton] at hmember
  obtain rfl : value = .ident "title" := (Prod.mk.inj hmember).2.symm
  exact absurd hresolved (by simp [SetMember.IsResolved, SetMember.key?, Expr.requiredService])

end Stage

end ConstructorContext

end SourceGen
