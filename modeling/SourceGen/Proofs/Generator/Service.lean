import SourceGen.Generator.Service
import SourceGen.Proofs.Compilation.Candidates
import SourceGen.Proofs.Snapshot.Attribute
import SourceGen.Proofs.Symbol.FullName

/-! The registration of generic classes for which no arguments are given. A type that is asked for
so is written with a comma less than it has parameters, its class with no commas at all. -/

namespace SourceGen

namespace TypeSnapshot

variable {type : TypeSymbol}

/-- A generic class without its arguments is written with empty brackets. -/
private theorem written_bare (hparameters : type.info.parameters ≠ []) :
    (ofSymbol type).written false = .applied type.bareName [] := by
  have hnonempty : (ofSymbol type).arguments.isEmpty = false := by
    by_cases harguments : type.arguments = [] <;> simp [ofSymbol, harguments, hparameters]
  rw [written, hnonempty]
  rfl

/-- The commas that separate the parameters of a type stand in front of its last bracket. -/
private theorem unbound_ne (text other : String) (count : Nat) :
    text ++ "<>" ≠ other ++ ("<" ++ String.ofList (List.replicate (count + 1) ',') ++ ">") := by
  intro h
  have hleft : (text ++ "<>").toList = text.toList ++ ['<'] ++ ['>'] := by simp
  have hright : (other ++ ("<" ++ String.ofList (List.replicate (count + 1) ',') ++ ">")).toList =
      other.toList ++ '<' :: List.replicate count ',' ++ [','] ++ ['>'] := by
    simp [List.replicate_succ']
  have hchars := congrArg String.toList h
  rw [hleft, hright] at hchars
  have hlast := congrArg List.getLast? (List.append_cancel_right hchars)
  rw [List.getLast?_concat, List.getLast?_concat] at hlast
  exact absurd (Option.some.inj hlast) (by decide)

/-- A generic class without its arguments is written as it is shown if it has one parameter and no
array of pointers is shown in the types around it. -/
theorem written_unbound_iff (h : type.HasIdentifiers) (hkind : type.info.kind = .classType)
    (hspecial : type.info.special = none) (hparameters : type.info.parameters ≠ []) :
    ((ofSymbol type).written false).text = type.unbound.fullName ↔
      type.info.parameters.length = 1 ∧
        type.containing.any TypeSymbol.namesPointerArray = false := by
  rw [written_bare hparameters, TypeExpr.text_applied_nil, type.fullName_unbound hkind hspecial]
  obtain ⟨count, hcount⟩ := Nat.exists_eq_succ_of_ne_zero
    (mt List.length_eq_zero_iff.mp hparameters)
  rw [hcount, Nat.succ_eq_add_one, Nat.add_sub_cancel]
  cases count with
  | zero =>
    have hempty : "<" ++ String.ofList (List.replicate 0 ',') ++ ">" = "<>" := by decide
    rw [hempty, String.append_left_inj, (h.typeName_bareName hkind hspecial).text_parse_iff]
    simp
  | succ count => simp [unbound_ne]

end TypeSnapshot

/-- A generic class that is registered once, by a type that is asked for without arguments. -/
structure TypeSymbol.IsOpenService (type service : TypeSymbol) (lifetime : ServiceLifetime)
    (key : Option Constant) : Prop where
  kind : type.info.kind = .classType
  plain : type.info.isRecord = false ∧ type.info.special = none
  parameters : type.info.parameters ≠ []
  identifiers : type.HasIdentifiers
  unbound : service.info.isUnbound = true
  marked : ∃ data marker owner value rest,
    type.attributes.filter (·.type.fullMetadataName == Names.serviceAttribute) = [data] ∧
      data.arguments = .enumeration owner value :: .type service :: rest ∧
      ServiceLifetime.ofValue? value = some lifetime ∧
      AttributeSnapshot.ofData data = .ok marker ∧ marker.namedValue? "Key" = key

namespace ServiceEntry

/-- What is registered of such a class. -/
def openEntry (type service : TypeSymbol) (lifetime : ServiceLifetime) (key : Option Constant) :
    ServiceEntry :=
  ⟨lifetime, .ofSymbol type, some ⟨service.fullName, true⟩, key⟩

/-- Whether the last type of a registration is written as a text. -/
def EndsWithType (entry : ServiceEntry) (text : String) : Prop :=
  ∃ callee arguments type, entry.registration = Expr.call callee (arguments ++ [.typeOf type]) ∧
    type.text = text

section Open

variable {type service : TypeSymbol} {lifetime : ServiceLifetime} {key : Option Constant}

theorem registration_open :
    (openEntry type service lifetime key).registration =
      ((Expr.ident "services").member
        ((if key.isSome then "AddKeyed" else "Add") ++ lifetime.name)).call
        ([.typeOf (.parse service.fullName)] ++ (key.map Constant.toExpr).toList ++
          [.typeOf ((TypeSnapshot.ofSymbol type).written false)]) :=
  rfl

/-- The last type of a registration without arguments is that of its class. -/
theorem endsWithType_open_iff {text : String} :
    (openEntry type service lifetime key).EndsWithType text ↔
      ((TypeSnapshot.ofSymbol type).written false).text = text := by
  constructor
  · rintro ⟨callee, arguments, written, h, rfl⟩
    rw [registration_open, Expr.call, Expr.call, Expr.invoke.injEq] at h
    have hlast := congrArg List.getLast? h.2
    simp only [List.map_append, List.map_cons, List.map_nil, List.getLast?_concat,
      Option.some.injEq, Argument.positional.injEq, Expr.typeOf.injEq] at hlast
    rw [hlast]
  · rintro rfl
    exact ⟨_, _, _, registration_open, rfl⟩

end Open

/-- What is read from a marked class. -/
theorem ofCandidate_open {type service : TypeSymbol} {lifetime : ServiceLifetime}
    {key : Option Constant} (h : type.IsOpenService service lifetime key) :
    (candidate? Names.serviceAttribute (· == .classDeclaration) none type.declaredKind
      (.type type)).bind ofCandidate = some (openEntry type service lifetime key) := by
  obtain ⟨data, marker, owner, value, rest, hmarkers, harguments, hlifetime, hdata, rfl⟩ := h.marked
  have hkind : type.declaredKind = .classDeclaration := by
    simp [TypeSymbol.declaredKind, TypeSymbol.declarationKeyword, h.kind, h.plain.1,
      TypeKeyword.kind]
  have harguments : ∃ constants, marker.arguments =
      .enumeration owner.fullName value :: .type service.fullName true :: constants := by
    have hshown := (AttributeSnapshot.shows_of_ofData hdata).arguments
    rw [harguments, List.forall₂_cons_left_iff] at hshown
    obtain ⟨first, others, hfirst, hothers, hmarker⟩ := hshown
    obtain ⟨second, constants, hsecond, -, rfl⟩ := List.forall₂_cons_left_iff.mp hothers
    simp only [Constant.ofValue, h.unbound, Except.ok.injEq] at hfirst hsecond
    exact ⟨constants, by rw [hmarker, hfirst, hsecond]⟩
  obtain ⟨constants, hconstants⟩ := harguments
  have hcandidate : candidate? Names.serviceAttribute (· == .classDeclaration) none
      type.declaredKind (.type type) =
        some ⟨0, ⟨.compilationUnit, 0, 0⟩, .type type, [data], none⟩ := by
    simp [candidate?, hkind, Symbol.attributes, hmarkers, Kind.isMemberDeclaration,
      Kind.isTypeDeclaration]
  rw [hcandidate, Option.bind_some, ofCandidate]
  simp only [hdata, hconstants, List.getElem?_cons_zero, List.getElem?_cons_succ, Option.bind_some,
    Constant.enumValue?, hlifetime, Option.map_some, serviceOf]
  rfl

/-- What the stage registers is made of the marked classes of the program. -/
theorem mem_entries_iff {input : CompilationInput} {context : ServiceContext}
    (hc : context ∈ serviceStage.contexts (.ofInput input)) {entry : ServiceEntry} :
    entry ∈ context.entries ↔ ∃ type ∈ input.declaredTypes,
      (candidate? Names.serviceAttribute (· == .classDeclaration) none type.declaredKind
        (.type type)).bind ofCandidate = some entry := by
  obtain rfl := List.mem_singleton.mp hc
  have hread : ∀ candidate : AttributeCandidate, candidate.symbol.type? = none →
      ofCandidate candidate = none := by
    rintro ⟨file, span, symbol, attributes, containing⟩ hsymbol
    cases symbol with
    | type type => simp [Symbol.type?] at hsymbol
    | field | property | method => rfl
  have hplace : IgnoresPlace ofCandidate := fun _ => rfl
  simp only [List.mem_mergeSort, Compilation.withAttribute_filterMap input _ hplace,
    List.mem_flatMap, TypeSymbol.filterMap_candidates_type _ hread, Option.mem_toList]

/-- A generic class that is registered by a type without arguments is written there as the class
without arguments is shown if it has one parameter, and no array of pointers is shown in the types
around it. Otherwise it is not. -/
theorem serviceStage_unbound_iff {input : CompilationInput} {type service : TypeSymbol}
    {lifetime : ServiceLifetime} {key : Option Constant} (hm : type ∈ input.declaredTypes)
    (h : type.IsOpenService service lifetime key) :
    ∃ context, serviceStage.contexts (.ofInput input) = [context] ∧
      serviceStage.units context =
        [("ServiceCollectionExtension.g.cs",
          serviceExtension "Microsoft.Extensions.DependencyInjection" "AddServices"
            (context.entries.map fun entry => .expression entry.registration))] ∧
      openEntry type service lifetime key ∈ context.entries ∧
      ((openEntry type service lifetime key).EndsWithType type.unbound.fullName ↔
        type.info.parameters.length = 1 ∧
          type.containing.any TypeSymbol.namesPointerArray = false) := by
  refine ⟨_, rfl, rfl, ?_, ?_⟩
  · exact (mem_entries_iff (List.mem_singleton_self _)).mpr ⟨type, hm, ofCandidate_open h⟩
  · rw [endsWithType_open_iff,
      TypeSnapshot.written_unbound_iff h.identifiers h.kind h.plain.2 h.parameters]

section Interface

/-- An interface that is asked for without arguments. -/
private def asked (name : String) (parameters : List String) : TypeSymbol :=
  (TypeSymbol.ofInfo
    { name, kind := .interfaceType, namespaceName := "App", parameters }).unbound

/-- The marker of a class that is registered once for a program. -/
private def marking (service : TypeSymbol) : AttributeData where
  type := .named .classType "Snap.Hutao.Core.DependencyInjection.Annotation" "ServiceAttribute"
  arguments :=
    [.enumeration (.named .enumType "Microsoft.Extensions.DependencyInjection" "ServiceLifetime") 0,
      .type service]
  named := []

private def registered (name : String) (parameters : List String) (service : TypeSymbol) :
    TypeSymbol :=
  { TypeSymbol.ofInfo { name, kind := .classType, namespaceName := "App", parameters } with
    attributes := [marking service] }

private theorem isIdentifier_registered :
    ∀ name ∈ ["App", "Box", "Map", "T", "K", "V"], Token.IsIdentifier name := by
  simp only [List.forall_mem_cons, List.not_mem_nil, false_imp_iff, implies_true, and_true,
    Token.isIdentifier_iff]
  refine ⟨?_, ?_, ?_, ?_, ?_, ?_⟩ <;> exact .plain rfl (by decide) (by decide) (by decide)

private theorem isOpenService_registered {name interface : String} {parameters : List String}
    (hne : parameters ≠ [])
    (hnames : "App" :: name :: parameters ⊆ ["App", "Box", "Map", "T", "K", "V"]) :
    (registered name parameters (asked interface parameters)).IsOpenService
      (asked interface parameters) .singleton none := by
  have hidentifiers : ∀ text ∈ "App" :: name :: parameters, Token.IsIdentifier text :=
    fun text hm => isIdentifier_registered text (hnames hm)
  obtain ⟨happ, hname, hparameters⟩ := by simpa only [List.forall_mem_cons] using hidentifiers
  refine ⟨rfl, ⟨rfl, rfl⟩, hne, ?_, rfl, marking (asked interface parameters), ?_⟩
  · exact .named (by simp [registered, TypeSymbol.ofInfo]) (by simp [registered, TypeSymbol.ofInfo])
      ⟨hname, ⟨["App"], by simpa using happ, rfl⟩, hparameters⟩
      (by simp [registered, TypeSymbol.ofInfo]) (by simp [registered, TypeSymbol.ofInfo])
      (by simp [registered, TypeSymbol.ofInfo])
  · exact ⟨_, _, _, [], rfl, rfl, rfl, rfl, rfl⟩

/-- A class with one parameter. -/
theorem serviceStage_unbound_box :
    let type := registered "Box" ["T"] (asked "IBox" ["T"])
    let input : CompilationInput := { assemblyName := "App", declarations := [("A.cs", [type])] }
    type ∈ input.declaredTypes ∧ ∃ context,
      serviceStage.contexts (.ofInput input) = [context] ∧
        ∃ entry ∈ context.entries, entry.EndsWithType type.unbound.fullName := by
  intro type input
  have hm : type ∈ input.declaredTypes := List.mem_singleton_self _
  have hopen : type.IsOpenService (asked "IBox" ["T"]) .singleton none :=
    isOpenService_registered (by decide) (by decide)
  obtain ⟨context, hcontext, -, hentry, hiff⟩ := serviceStage_unbound_iff hm hopen
  exact ⟨hm, context, hcontext, _, hentry, hiff.mpr ⟨rfl, rfl⟩⟩

/-- A class with two parameters loses the comma between them. -/
theorem serviceStage_unbound_map :
    ¬ ∀ (input : CompilationInput) (type service : TypeSymbol) (lifetime : ServiceLifetime)
      (key : Option Constant), type ∈ input.declaredTypes →
        type.IsOpenService service lifetime key →
        ∀ context ∈ serviceStage.contexts (.ofInput input),
          ∃ entry ∈ context.entries, entry.EndsWithType type.unbound.fullName := by
  intro h
  let service := asked "IMap" ["K", "V"]
  let type := registered "Map" ["K", "V"] service
  let input : CompilationInput := { assemblyName := "App", declarations := [("A.cs", [type])] }
  have hopen : type.IsOpenService service .singleton none :=
    isOpenService_registered (by decide) (by decide)
  obtain ⟨entry, hentry, hends⟩ := h input type service .singleton none (List.mem_singleton_self _)
    hopen _ (List.mem_singleton_self _)
  obtain ⟨owner, howner, hread⟩ := (mem_entries_iff (List.mem_singleton_self _)).mp hentry
  obtain rfl : owner = type := List.mem_singleton.mp howner
  obtain rfl := Option.some.inj (hread.symm.trans (ofCandidate_open hopen))
  rw [endsWithType_open_iff, TypeSnapshot.written_unbound_iff hopen.identifiers hopen.kind
    hopen.plain.2 hopen.parameters] at hends
  exact absurd hends.1 (by decide)

end Interface

end ServiceEntry

end SourceGen
