import SourceGen.Generator.Bindable
import SourceGen.Proofs.Generator.Command
import SourceGen.Proofs.Generator.Resource

/-! The lookup of members by name. It has an arm for each public property and each command of a
class and of its base types, also for one whose name another of these classes uses again. The arms
for the commands of the class itself are for those that are written for it. -/

namespace SourceGen

/-- Whether an expression is a type. -/
def Expr.isType : Expr → Bool
  | .type _ => true
  | _ => false

namespace Arm

/-- The name that an arm is for. -/
def name? : Arm → Option String
  | .case (.constant (.invoke (.ident "nameof") [.positional (.ident name)])) _ => some name
  | _ => none

/-- The command that an arm is for; it is taken from the class itself if it is static. -/
def command? : Arm → Option WrittenCommand
  | .case (.constant (.invoke (.ident "nameof") [.positional (.ident name)]))
      (.newImplicit [_, _, _, .positional (.typeOf type),
        .positional (.lambda _ _ (.member receiver _)), _, _, _]) =>
    some ⟨name, type.text, receiver.isType⟩
  | _ => none

end Arm

/-- The names that a lookup has arms for because of the members of a type itself. -/
def TypeSymbol.lookupNames (type : TypeSymbol) : List String :=
  ((type.properties.filter (·.accessibility == .publicAccess)).filter
      (·.parameters.head?.isNone)).map (·.name) ++
    type.commandMethods.flatMap MethodSymbol.commandNames

namespace BindableContext

variable {context : BindableContext} {type : TypeSymbol}

/-- What is known of a class: its public properties and those of its base types, and their
commands. -/
structure Describes (context : BindableContext) (type : TypeSymbol) : Prop where
  hierarchy : context.hierarchy = .ofSymbol type
  properties : List.Forall₂ (fun property snapshot =>
    PropertySnapshot.ofSymbol property = .ok snapshot) (propertiesOf type) context.properties
  commands : List.Forall₂ (fun method command =>
      CommandMethod.ofSymbol method method.attributes = .ok command)
    ((type :: type.bases).flatMap TypeSymbol.commandMethods) context.commands

theorem describes_of_ofSymbol (h : ofSymbol type = .ok context) : context.Describes type := by
  unfold ofSymbol at h
  split at h
  · next properties commands hproperties hcommands =>
    obtain rfl := Except.ok.inj h
    exact ⟨rfl, collectAll_eq_ok_iff.mp hproperties, collectAll_eq_ok_iff.mp hcommands⟩
  · simp at h
  · simp at h

/-- The classes of a program that are described. -/
theorem mem_contexts_iff {input : CompilationInput} :
    context ∈ bindableStage.contexts (.ofInput input) ↔
      ∃ type ∈ input.declaredTypes, type.declaredKind = .classDeclaration ∧
        type.attributes.filter (·.type.fullMetadataName == Names.bindableAttribute) ≠ [] ∧
        ofSymbol type = .ok context := by
  have hread : ∀ candidate : AttributeCandidate, candidate.symbol.type? = none →
      ofCandidate candidate = none := by
    rintro ⟨file, span, symbol, attributes, containing⟩ hsymbol
    simp only [ofCandidate, hsymbol, Option.bind_none]
  have hplace : IgnoresPlace ofCandidate := fun _ => rfl
  simp only [bindableStage, Compilation.withAttribute_filterMap input _ hplace, List.mem_flatMap,
    TypeSymbol.filterMap_candidates_type _ hread, Option.mem_toList]
  refine exists_congr fun type => and_congr_right fun _ => ?_
  by_cases hkind : type.declaredKind = .classDeclaration
  · rw [hkind, candidate?_declared rfl, Symbol.attributes]
    cases type.attributes.filter (·.type.fullMetadataName == Names.bindableAttribute) with
    | nil => simp
    | cons marker rest =>
      cases h : ofSymbol type <;> simp [ofCandidate, Symbol.type?, Except.toOption, h]
  · simp [candidate?, hkind]

section Arms

/-- The arms of the commands of a method. -/
def commandArms (context : BindableContext) (command : CommandMethod) : List Arm :=
  command.commandNames.map (context.commandArm command)

/-- Each arm is for one of the commands. -/
theorem command?_commandArms (command : CommandMethod) :
    (context.commandArms command).map Arm.command? = command.written.map some := by
  rw [commandArms, CommandMethod.written, List.map_map, List.map_map]
  refine List.map_congr_left fun name _ => ?_
  cases hstatic : command.method.isStatic <;>
    simp [commandArm, Binding.toExpr, Expr.nameOf, Expr.call, Arm.command?, receiver, hstatic,
      Expr.isType, instanceExpr, unsafelyAs]

/-- The arms of the commands that some methods become. -/
def AreArmsOf (context : BindableContext) (methods : List MethodSymbol) (arms : List Arm) : Prop :=
  ∃ commands, List.Forall₂ (fun method command =>
      CommandMethod.ofSymbol method method.attributes = .ok command) methods commands ∧
    arms = commands.flatMap context.commandArms

/-- The names that the arms are for, but for the last one. -/
def names (context : BindableContext) : List String :=
  (context.properties.filter (·.indexer.isNone)).map (·.name) ++
    context.commands.flatMap CommandMethod.commandNames

theorem name?_arms : context.arms.map Arm.name? = context.names.map some ++ [none] := by
  have hproperty (property : PropertySnapshot) :
      (context.propertyArm property).name? = some property.name := rfl
  have hcommand (command : CommandMethod) (name : String) :
      (context.commandArm command name).name? = some name := rfl
  simp only [arms, names, List.map_append, List.map_map, List.map_flatMap, Function.comp_def,
    hproperty, hcommand, List.map_cons, List.map_nil]
  rfl

/-- In front of the last arm are those of the properties, of the commands of the class itself, and
of the commands of its base types. -/
theorem arms_eq (h : context.Describes type) :
    ∃ own inherited, context.arms =
        (context.properties.filter (·.indexer.isNone)).map context.propertyArm ++ own ++
          inherited ++ [.case .discard .default] ∧
      context.AreArmsOf type.commandMethods own ∧
      context.AreArmsOf (type.bases.flatMap TypeSymbol.commandMethods) inherited := by
  let count := type.commandMethods.length
  have hown := List.forall₂_take count h.commands
  have hinherited := List.forall₂_drop count h.commands
  rw [List.flatMap_cons, List.take_left] at hown
  rw [List.flatMap_cons, List.drop_left] at hinherited
  refine ⟨(context.commands.take count).flatMap context.commandArms,
    (context.commands.drop count).flatMap context.commandArms, ?_, ⟨_, hown, rfl⟩,
    ⟨_, hinherited, rfl⟩⟩
  have hparts : context.commands.flatMap context.commandArms =
      (context.commands.take count).flatMap context.commandArms ++
        (context.commands.drop count).flatMap context.commandArms := by
    rw [← List.flatMap_append, List.take_append_drop]
  have harms : context.arms =
      (context.properties.filter (·.indexer.isNone)).map context.propertyArm ++
        context.commands.flatMap context.commandArms ++ [.case .discard .default] := rfl
  rw [harms, hparts, ← List.append_assoc]

/-- The properties of a class that can be looked up by name. -/
private theorem names_properties {properties : List PropertySymbol}
    {snapshots : List PropertySnapshot}
    (h : List.Forall₂ (fun property snapshot => PropertySnapshot.ofSymbol property = .ok snapshot)
      properties snapshots) :
    (snapshots.filter (·.indexer.isNone)).map (·.name) =
      (properties.filter (·.parameters.head?.isNone)).map (·.name) := by
  induction h with
  | nil => rfl
  | @cons property snapshot properties snapshots hproperty _ ih =>
    have hshows := PropertySnapshot.shows_of_ofSymbol hproperty
    rw [List.filter_cons, List.filter_cons, hshows.indexer, Option.isNone_map]
    split
    · rw [List.map_cons, List.map_cons, hshows.name, ih]
    · exact ih

private theorem names_commands {methods : List MethodSymbol} {commands : List CommandMethod}
    (h : List.Forall₂ (fun method command =>
      CommandMethod.ofSymbol method method.attributes = .ok command) methods commands) :
    commands.flatMap CommandMethod.commandNames = methods.flatMap MethodSymbol.commandNames := by
  induction h with
  | nil => rfl
  | cons hcommand _ ih =>
    rw [List.flatMap_cons, List.flatMap_cons, CommandMethod.commandNames_ofSymbol hcommand, ih]

/-- The names are those of the class and of its base types. -/
theorem names_perm (h : context.Describes type) :
    context.names.Perm ((type :: type.bases).flatMap TypeSymbol.lookupNames) := by
  rw [names, names_properties h.properties, names_commands h.commands, propertiesOf,
    List.filter_flatMap, List.map_flatMap, List.flatMap_assoc]
  exact List.flatMap_append_perm _ _ _

end Arms

/-- Whether the file of a context looks members up by name with some arms. -/
def LooksUpByName (context : BindableContext) (arms : List Arm) : Prop :=
  ∃ hint members bases, bindableStage.units context =
    [(hint, context.hierarchy.toUnit
      (lookup (.simple .string "name") [.result (.switch (.ident "name") arms)] :: members) bases)]

theorem looksUpByName_arms : context.LooksUpByName context.arms :=
  ⟨_, _, _, rfl⟩

section Stage

variable {input : CompilationInput}

/-- The arms that a lookup by name has for the methods of a class itself are for the same commands
as the properties that are written for the class, if types are declared once. -/
theorem bindableStage_commands
    (hn : (input.declaredTypes.map TypeSymbol.fullMetadataName).Nodup)
    (hm : type ∈ input.declaredTypes)
    (hkind : ∀ method ∈ type.commandMethods, method.kind = .ordinary)
    (hc : context ∈ bindableStage.contexts (.ofInput input))
    (hhierarchy : context.hierarchy = .ofSymbol type) :
    ∃ own inherited, ∃ written : List WrittenCommand,
      context.LooksUpByName
        ((context.properties.filter (·.indexer.isNone)).map context.propertyArm ++ own ++
          inherited ++ [.case .discard .default]) ∧
      context.AreArmsOf type.commandMethods own ∧
      context.AreArmsOf (type.bases.flatMap TypeSymbol.commandMethods) inherited ∧
      own.map Arm.command? = written.map some ∧
      (∀ found : CommandContext, commandStage.units found =
        [(found.hierarchy.hint ".Command.g.cs", found.hierarchy.toUnit found.members [])]) ∧
      (((commandStage.contexts (.ofInput input)).filter (·.hierarchy = .ofSymbol type)).flatMap
        fun found => found.members.map Member.command?).Perm (written.map some) := by
  obtain ⟨owner, howner, hdeclared, -, hread⟩ := mem_contexts_iff.mp hc
  have h := describes_of_ofSymbol hread
  obtain rfl : owner = type := by
    refine List.inj_on_of_nodup_map (CompilationInput.hierarchies_nodup hn) howner hm ?_
    rw [← h.hierarchy, hhierarchy]
  have henum : owner.info.kind ≠ .enumType := by
    intro henum
    simp [TypeSymbol.declaredKind, henum] at hdeclared
  obtain ⟨own, inherited, harms, ⟨commands, hcommands, hown⟩, hinherited⟩ := arms_eq h
  refine ⟨own, inherited, commands.flatMap CommandMethod.written, harms ▸ looksUpByName_arms,
    ⟨commands, hcommands, hown⟩, hinherited, ?_, fun _ => rfl, ?_⟩
  · rw [hown, List.map_flatMap, List.map_flatMap]
    exact List.flatMap_congr fun command _ => command?_commandArms command
  · simp only [CommandContext.map_command?_members]
    rw [← List.map_flatMap]
    exact (CommandMethod.commandStage_written hn hm henum hkind hcommands).map some

/-- The markers of a class whose members are looked up by name, and of a command. -/
private def bindable : AttributeData :=
  ⟨.named .classType "Snap.Hutao.Core.Annotation" "BindableCustomPropertyProviderAttribute", [], []⟩

private def refreshing : AttributeData :=
  ⟨.named .classType "Snap.Hutao.Core.Annotation" "CommandAttribute",
    [.primitive (.string "RefreshCommand")], []⟩

private def refresh : MethodSymbol :=
  { MethodSymbol.named "Refresh" (.special .void) with attributes := [refreshing] }

/-- A class with a title and a command. Its base type has a property too. -/
private def page (inherited : String) : TypeSymbol :=
  { TypeSymbol.named .classType "App" "Page" with
    base := some
      { TypeSymbol.named .classType "App" "Base" with
        members := [.property (.named inherited (.special .string))] }
    attributes := [bindable]
    members := [.property (.named "Title" (.special .string)), .method refresh] }

private def program (inherited : String) : CompilationInput :=
  { assemblyName := "App", declarations := [("A.cs", [page inherited])] }

private theorem exists_context (inherited : String) :
    ∃ context, ofSymbol (page inherited) = .ok context ∧
      context ∈ bindableStage.contexts (.ofInput (program inherited)) := by
  have hread : (ofSymbol (page inherited)).isOk = true := rfl
  cases h : ofSymbol (page inherited) with
  | error failure => simp [h, Except.isOk, Except.toBool] at hread
  | ok context =>
    exact ⟨context, rfl, mem_contexts_iff.mpr
      ⟨page inherited, List.mem_singleton_self _, rfl, List.cons_ne_nil bindable [], h⟩⟩

/-- A class with one command. -/
theorem bindableStage_commands_refresh :
    ∃ context ∈ bindableStage.contexts (.ofInput (program "Kind")),
      ∃ own inherited, ∃ text : String, context.LooksUpByName
        ((context.properties.filter (·.indexer.isNone)).map context.propertyArm ++ own ++
          inherited ++ [.case .discard .default]) ∧
      own.map Arm.command? = [some ⟨"RefreshCommand", text, false⟩] ∧
      (((commandStage.contexts (.ofInput (program "Kind"))).filter
          (·.hierarchy = .ofSymbol (page "Kind"))).flatMap fun found =>
        found.members.map Member.command?).Perm [some ⟨"RefreshCommand", text, false⟩] := by
  obtain ⟨context, hread, hc⟩ := exists_context "Kind"
  have hn : ((program "Kind").declaredTypes.map TypeSymbol.fullMetadataName).Nodup :=
    List.nodup_singleton _
  have hmethods : (page "Kind").commandMethods = [refresh] := rfl
  have hkind : ∀ method ∈ (page "Kind").commandMethods, method.kind = .ordinary := by
    simp [hmethods, refresh, MethodSymbol.named]
  obtain ⟨own, inherited, written, hlookup, ⟨commands, hcommands, hown⟩, -, harms, -, hwritten⟩ :=
    bindableStage_commands hn (List.mem_singleton_self _) hkind hc
      (describes_of_ofSymbol hread).hierarchy
  rw [hmethods] at hcommands
  obtain ⟨command, rest, hcommand, hrest, rfl⟩ := List.forall₂_cons_left_iff.mp hcommands
  obtain rfl := List.forall₂_nil_left_iff.mp hrest
  have hnames : command.commandNames = ["RefreshCommand"] :=
    CommandMethod.commandNames_ofSymbol hcommand
  have hstatic : command.method.isStatic = false := by
    obtain ⟨snapshots, -, rfl⟩ := CommandMethod.ofSymbol_eq_ok_iff.mp hcommand
    rfl
  have hcommands : own.map Arm.command? =
      [some ⟨"RefreshCommand", command.commandType.text, false⟩] := by
    rw [hown, List.flatMap_singleton, command?_commandArms, CommandMethod.written, hnames, hstatic]
    rfl
  exact ⟨context, hc, own, inherited, _, hlookup, hcommands, hcommands ▸ harms ▸ hwritten⟩

/-- The arms of a lookup by name are for the names of a class and of its base types. No two of them
are for the same name exactly if no class has a name twice and no two of these classes share one. -/
theorem bindableStage_names_nodup_iff (hc : context ∈ bindableStage.contexts (.ofInput input)) :
    ∃ type ∈ input.declaredTypes, ofSymbol type = .ok context ∧
      ∃ arms, ∃ names : List String,
        context.LooksUpByName arms ∧ arms.map Arm.name? = names.map some ++ [none] ∧
        names.Perm ((type :: type.bases).flatMap TypeSymbol.lookupNames) ∧
        ((names.map Text.identity).Nodup ↔
          (∀ current ∈ type :: type.bases, (current.lookupNames.map Text.identity).Nodup) ∧
            (type :: type.bases).Pairwise fun derived base =>
              (derived.lookupNames.map Text.identity).Disjoint
                (base.lookupNames.map Text.identity)) := by
  obtain ⟨type, htype, -, -, hread⟩ := mem_contexts_iff.mp hc
  have hnames := names_perm (describes_of_ofSymbol hread)
  refine ⟨type, htype, hread, context.arms, context.names, looksUpByName_arms, name?_arms, hnames,
    ?_⟩
  rw [(hnames.map Text.identity).nodup_iff, List.map_flatMap, List.nodup_flatMap]

/-- A class without a name of its base type. -/
theorem bindableStage_names_nodup_page :
    ∃ context ∈ bindableStage.contexts (.ofInput (program "Kind")), ∃ arms, ∃ names : List String,
      context.LooksUpByName arms ∧ arms.map Arm.name? = names.map some ++ [none] ∧
        names.Perm ["Title", "RefreshCommand", "Kind"] ∧ (names.map Text.identity).Nodup := by
  obtain ⟨context, -, hc⟩ := exists_context "Kind"
  obtain ⟨type, htype, -, arms, names, hlookup, harms, hnames, hnodup⟩ :=
    bindableStage_names_nodup_iff hc
  obtain rfl := List.mem_singleton.mp htype
  exact ⟨context, hc, arms, names, hlookup, harms, hnames,
    hnodup.mpr ⟨by decide, List.pairwise_pair.mpr (List.disjoint_of_nodup_append (by decide))⟩⟩

/-- A property that hides one of the base type. -/
theorem bindableStage_names_hidden :
    ¬ ∀ (input : CompilationInput) (context : BindableContext),
      context ∈ bindableStage.contexts (.ofInput input) →
      ∀ type ∈ input.declaredTypes, ofSymbol type = .ok context →
        (∀ current ∈ type :: type.bases,
          (∀ name ∈ current.lookupNames, Text.isName name = true) ∧
            (current.lookupNames.map Text.identity).Nodup) →
        ∀ arms, ∀ names : List String,
          context.LooksUpByName arms → arms.map Arm.name? = names.map some ++ [none] →
            (names.map Text.identity).Nodup := by
  intro h
  obtain ⟨context, hread, hc⟩ := exists_context "Title"
  have hnodup := h (program "Title") context hc (page "Title") (List.mem_singleton_self _) hread
    (by decide) context.arms context.names looksUpByName_arms name?_arms
  have hnames := names_perm (describes_of_ofSymbol hread)
  rw [(hnames.map Text.identity).nodup_iff] at hnodup
  exact absurd hnodup (by decide)

end Stage

end BindableContext

end SourceGen
