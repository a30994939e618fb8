import SourceGen.Proofs.Generator.Candidates
import SourceGen.Proofs.Snapshot.Attribute

/-! The commands of a class as they are written: their names, their types, and whether they belong
to the class itself. What is read from a method does not depend on its other attributes. -/

namespace SourceGen

/-- A command as it is written. -/
structure WrittenCommand where
  name : String
  type : String
  isStatic : Bool
  deriving DecidableEq

/-- The command that a property is for. -/
def Member.command? : Member → Option WrittenCommand
  | .declare header (.property type name _ _) =>
    some ⟨name, type.text, header.modifiers.contains .static⟩
  | _ => none

namespace MethodSymbol

def isCommand (method : MethodSymbol) : Bool :=
  method.attributes.any (·.type.fullMetadataName == Names.commandAttribute)

/-- The names of the commands that a method becomes: one for each marker that starts with a text. -/
def commandNames (method : MethodSymbol) : List String :=
  (method.attributes.filter (·.type.fullMetadataName == Names.commandAttribute)).filterMap
    fun marker => marker.arguments.head?.bind ConstantValue.string?

end MethodSymbol

/-- The methods of a type itself that become commands. -/
def TypeSymbol.commandMethods (type : TypeSymbol) : List MethodSymbol :=
  type.methods.filter MethodSymbol.isCommand

namespace CommandMethod

/-- The commands that a method becomes. -/
def written (command : CommandMethod) : List WrittenCommand :=
  command.commandNames.map fun name => ⟨name, command.commandType.text, command.method.isStatic⟩

/-- Each property is one of the commands. -/
theorem toMembers_written (command : CommandMethod) :
    command.toMembers.map Member.command? = command.written.map some := by
  have hproperty (marker : AttributeSnapshot) :
      (command.property? marker).map Member.command? = (marker.string? 0).map fun name =>
        some ⟨name, command.commandType.text, command.method.isStatic⟩ := by
    rw [property?]
    cases marker.string? 0 with
    | none => rfl
    | some name => cases command.method.isStatic <;> simp [Member.command?]
  rw [toMembers, written, commandNames, List.map_filterMap, List.map_map, List.map_filterMap]
  exact List.filterMap_congr fun marker _ => hproperty marker

/-- What is read from a method, with some of its attributes. -/
theorem ofSymbol_eq_ok_iff {method : MethodSymbol} {attributes : List AttributeData}
    {command : CommandMethod} :
    ofSymbol method attributes = .ok command ↔
      ∃ snapshots, AttributeSnapshot.ofAll attributes = .ok snapshots ∧
        command = ⟨method.returnType.isOrInherits Names.task, snapshots, .ofSymbol method⟩ := by
  rw [ofSymbol]
  cases AttributeSnapshot.ofAll attributes <;> simp [Except.map, eq_comm]

section Read

variable {method : MethodSymbol} {command : CommandMethod}

/-- The other attributes of a method have no influence on its commands. -/
theorem ofSymbol_markers (h : ofSymbol method method.attributes = .ok command) :
    ∃ marked, ofSymbol method (method.attributes.filter
        (·.type.fullMetadataName == Names.commandAttribute)) = .ok marked ∧
      marked.written = command.written := by
  obtain ⟨snapshots, hsnapshots, rfl⟩ := ofSymbol_eq_ok_iff.mp h
  refine ⟨_, ofSymbol_eq_ok_iff.mpr ⟨_, AttributeSnapshot.ofAll_filter hsnapshots _, rfl⟩, ?_⟩
  have hmarkers : (snapshots.filter (·.metadataName == Names.commandAttribute)).filter
      (·.metadataName == Names.commandAttribute) =
        snapshots.filter (·.metadataName == Names.commandAttribute) := by
    simp [List.filter_filter]
  rw [written, commandNames, markers, hmarkers]
  rfl

theorem commandNames_ofSymbol (h : ofSymbol method method.attributes = .ok command) :
    command.commandNames = method.commandNames := by
  obtain ⟨snapshots, hsnapshots, rfl⟩ := ofSymbol_eq_ok_iff.mp h
  exact AttributeSnapshot.filterMap_string?
    (AttributeSnapshot.ofAll_filter hsnapshots Names.commandAttribute)

end Read

section Stage

variable {input : CompilationInput} {type : TypeSymbol}

/-- What is read from the declaration of a method. -/
private def read (type : TypeSymbol) (method : MethodSymbol) : Option (Hierarchy × CommandMethod) :=
  (candidate? Names.commandAttribute (· == .methodDeclaration) (some type)
    (Symbol.method method).declarationKind (.method method)).bind ofCandidate

private theorem read_unmarked {method : MethodSymbol} (h : method.isCommand = false) :
    read type method = none := by
  have hmarkers : method.attributes.filter
      (·.type.fullMetadataName == Names.commandAttribute) = [] := by
    simpa [MethodSymbol.isCommand] using h
  simp [read, candidate?, Symbol.attributes, hmarkers]

private theorem read_marked (type : TypeSymbol) {method : MethodSymbol} {command : CommandMethod}
    (hmarked : method.isCommand = true) (hkind : method.kind = .ordinary)
    (h : ofSymbol method method.attributes = .ok command) :
    ∃ marked, read type method = some (.ofSymbol type, marked) ∧
      marked.written = command.written := by
  obtain ⟨marked, hread, hwritten⟩ := ofSymbol_markers h
  have hdeclared : (Symbol.method method).declarationKind = .methodDeclaration := by
    rw [Symbol.declarationKind, hkind]
  have hmarkers : method.attributes.filter
      (·.type.fullMetadataName == Names.commandAttribute) ≠ [] := by
    simpa [MethodSymbol.isCommand] using hmarked
  refine ⟨marked, ?_, hwritten⟩
  rw [read, hdeclared, candidate?_declared rfl, Symbol.attributes]
  obtain ⟨marker, rest, heq⟩ := List.exists_cons_of_ne_nil hmarkers
  rw [heq] at hread ⊢
  simp [ofCandidate, hread, Except.toOption]

/-- What is read from all methods of a type. -/
private theorem read_methods {methods : List MethodSymbol} {commands : List CommandMethod}
    (hkind : ∀ method ∈ methods.filter MethodSymbol.isCommand, method.kind = .ordinary)
    (h : List.Forall₂ (fun method command => ofSymbol method method.attributes = .ok command)
      (methods.filter MethodSymbol.isCommand) commands) :
    ((methods.filterMap (read type)).map (·.2)).flatMap written = commands.flatMap written := by
  induction methods generalizing commands with
  | nil =>
    obtain rfl := List.forall₂_nil_left_iff.mp h
    rfl
  | cons method rest ih =>
    cases hmarked : method.isCommand with
    | false =>
      rw [List.filter_cons_of_neg (by simp [hmarked])] at hkind h
      rw [List.filterMap_cons_none (read_unmarked hmarked), ih hkind h]
    | true =>
      rw [List.filter_cons_of_pos hmarked] at hkind h
      obtain ⟨hordinary, hrest⟩ := List.forall_mem_cons.mp hkind
      obtain ⟨command, others, hcommand, hothers, rfl⟩ := List.forall₂_cons_left_iff.mp h
      obtain ⟨marked, hread, hwritten⟩ := read_marked type hmarked hordinary hcommand
      rw [List.filterMap_cons_some hread, List.map_cons, List.flatMap_cons, List.flatMap_cons,
        hwritten, ih hrest hothers]

/-- What is read from a type and its members. -/
private def owned (type : TypeSymbol) : List (Hierarchy × CommandMethod) :=
  (type.candidates Names.commandAttribute (· == .methodDeclaration)).filterMap ofCandidate

private theorem owned_eq (henum : type.info.kind ≠ .enumType) :
    owned type = type.methods.filterMap (read type) := by
  have hread : ∀ candidate : AttributeCandidate, candidate.symbol.method? = none →
      ofCandidate candidate = none := by
    rintro ⟨file, span, symbol, attributes, containing⟩ hsymbol
    cases symbol with
    | method method => simp [Symbol.method?] at hsymbol
    | type | field | property => rfl
  rw [owned, type.filterMap_candidates_methods hread, if_neg henum]
  rfl

/-- What is read from a class that is declared once is read from its own methods. -/
private theorem valuesOf_owned
    (hn : (input.declaredTypes.map TypeSymbol.fullMetadataName).Nodup)
    (hm : type ∈ input.declaredTypes) (henum : type.info.kind ≠ .enumType) :
    valuesOf (.ofSymbol type) (input.declaredTypes.flatMap owned) =
      (type.methods.filterMap (read type)).map (·.2) := by
  rw [← owned_eq henum]
  exact valuesOf_owner (fun owner _ => owner.key_of_candidates fun _ _ => ofCandidate_key)
    (CompilationInput.hierarchies_nodup hn) hm

private theorem contexts_perm (input : CompilationInput) :
    (commandStage.contexts (.ofInput input)).Perm
      ((groupByKey (input.declaredTypes.flatMap owned)).map CommandContext.ofGroup) := by
  have howned : input.declaredTypes.flatMap owned =
      ((Compilation.ofInput input).withAttribute Names.commandAttribute
        (· == .methodDeclaration)).filterMap ofCandidate :=
    (Compilation.withAttribute_filterMap input _ ofCandidate_ignoresPlace).symm
  rw [howned]
  exact List.mergeSort_perm _ _

/-- The commands that are written for a class are those of its own methods, if types are declared
once. -/
theorem commandStage_written (hn : (input.declaredTypes.map TypeSymbol.fullMetadataName).Nodup)
    (hm : type ∈ input.declaredTypes) (henum : type.info.kind ≠ .enumType)
    (hkind : ∀ method ∈ type.commandMethods, method.kind = .ordinary)
    {commands : List CommandMethod}
    (h : List.Forall₂ (fun method command => ofSymbol method method.attributes = .ok command)
      type.commandMethods commands) :
    (((commandStage.contexts (.ofInput input)).filter (·.hierarchy = .ofSymbol type)).flatMap
      fun context => context.methods.flatMap written).Perm (commands.flatMap written) := by
  let entries := input.declaredTypes.flatMap owned
  let groups := (groupByKey entries).filter (·.1 = .ofSymbol type)
  calc ((commandStage.contexts (.ofInput input)).filter (·.hierarchy = .ofSymbol type)).flatMap
        fun context => context.methods.flatMap written
    List.Perm _ (groups.flatMap fun group =>
        (sortByText (·.method.name) group.2).flatMap written) := by
      refine (((contexts_perm input).filter _).flatMap_right _).trans (List.Perm.of_eq ?_)
      rw [List.filter_map, List.flatMap_map]
      rfl
    List.Perm _ (groups.flatMap fun group => group.2.flatMap written) :=
      List.Perm.flatMap_left _ fun group _ => (List.mergeSort_perm _ _).flatMap_right _
    List.Perm _ ((valuesOf (.ofSymbol type) entries).flatMap written) := by
      rw [← List.flatMap_assoc]
      exact (groupByKey_values _ _).flatMap_right _
    _ = commands.flatMap written := by rw [valuesOf_owned hn hm henum, read_methods hkind h]

end Stage

end CommandMethod

namespace CommandContext

/-- The properties of a class. -/
def members (context : CommandContext) : List Member :=
  context.methods.flatMap CommandMethod.toMembers

theorem map_command?_members (context : CommandContext) :
    context.members.map Member.command? =
      (context.methods.flatMap CommandMethod.written).map some := by
  rw [members, List.map_flatMap, List.map_flatMap]
  exact List.flatMap_congr fun method _ => method.toMembers_written

end CommandContext

end SourceGen
