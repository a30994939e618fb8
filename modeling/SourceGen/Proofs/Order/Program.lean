import SourceGen.Proofs.Generator.Candidates

/-! Programs that are built from the same files, in other orders: generators collect the same units
of work from them. -/

namespace SourceGen

namespace TypeSymbol

theorem isTopAmong_of_perm {types others : List TypeSymbol} (h : types.Perm others)
    (type : TypeSymbol) : type.isTopAmong types = type.isTopAmong others := by
  unfold isTopAmong
  simp only [h.any_eq]

theorem within_perm {types others : List TypeSymbol} (h : types.Perm others) (depth : Nat)
    (type : TypeSymbol) : (type.within types depth).Perm (type.within others depth) := by
  induction depth generalizing type with
  | zero => exact .refl _
  | succ depth ih =>
    by_cases hk : type.info.kind = .enumType
    · simp [within, hk]
    · simp only [within, if_neg hk]
      exact ((h.filter _).flatMap fun inner _ => ih inner).cons type

end TypeSymbol

theorem declaredTypes_perm {types others : List TypeSymbol} (h : types.Perm others) :
    (declaredTypes types).Perm (declaredTypes others) := by
  unfold declaredTypes
  rw [h.length_eq, funext (TypeSymbol.isTopAmong_of_perm h)]
  exact (h.filter _).flatMap fun type _ => type.within_perm h others.length

namespace CompilationInput

/-- Whether a program is built from the same files as another, which may come in another order and
list their types in another order. -/
structure Reordered (input other : CompilationInput) : Prop where
  assemblyName : other.assemblyName = input.assemblyName
  declarations : ∃ moved, input.declarations.Perm moved ∧
    List.Forall₂ (fun file changed => changed.1 = file.1 ∧ file.2.Perm changed.2) moved
      other.declarations
  sources : input.sources.Perm other.sources
  references : other.references = input.references
  expressionTypes : other.expressionTypes = input.expressionTypes

/-- Whether no two declared types have the same full name. -/
def Unambiguous (input : CompilationInput) : Prop :=
  ((input.declarations.flatMap (·.2)).map TypeSymbol.fullName).Nodup

variable {input other : CompilationInput}

theorem Unambiguous.injective (h : input.Unambiguous) :
    ∀ a ∈ input.declaredTypes, ∀ b ∈ input.declaredTypes, a.fullName = b.fullName → a = b :=
  fun _ ha _ hb => List.inj_on_of_nodup_map h (mem_listed ha) (mem_listed hb)

/-- What is read from the types of each file, if their order only changes its order. -/
private theorem Reordered.flatMap_perm (h : input.Reordered other) {β : Type}
    (read : List TypeSymbol → List β)
    (hread : ∀ {types others : List TypeSymbol}, types.Perm others →
      (read types).Perm (read others)) :
    (input.declarations.flatMap fun file => read file.2).Perm
      (other.declarations.flatMap fun file => read file.2) := by
  obtain ⟨moved, hp, hf⟩ := h.declarations
  refine (hp.flatMap_right _).trans ?_
  rw [List.flatMap_def, List.flatMap_def]
  refine List.Perm.flatten_congr ?_
  rw [List.forall₂_map_left_iff, List.forall₂_map_right_iff]
  exact hf.imp fun _ _ hfile => hread hfile.2

theorem Reordered.declaredTypes (h : input.Reordered other) :
    input.declaredTypes.Perm other.declaredTypes :=
  h.flatMap_perm SourceGen.declaredTypes declaredTypes_perm

theorem Reordered.unambiguous (h : input.Reordered other) (hu : input.Unambiguous) :
    other.Unambiguous :=
  ((h.flatMap_perm id id).map _).nodup_iff.mp hu

end CompilationInput

section Stages

variable {input other : CompilationInput}

private theorem read_perm (h : input.Reordered other) (name : String) {accepts : Kind → Bool}
    {β : Type} {read : AttributeCandidate → Option β} (hr : IgnoresPlace read) :
    (((Compilation.ofInput input).withAttribute name accepts).filterMap read).Perm
      (((Compilation.ofInput other).withAttribute name accepts).filterMap read) := by
  rw [Compilation.withAttribute_filterMap input name hr,
    Compilation.withAttribute_filterMap other name hr]
  exact h.declaredTypes.flatMap_right _

private theorem bases_perm (h : input.Reordered other) {β : Type} (read : TypeSymbol → Option β) :
    (((Compilation.ofInput input).withShape Site.hasBaseList).filterMap
      fun candidate => (candidate.symbol.bind Symbol.type?).bind read).Perm
    (((Compilation.ofInput other).withShape Site.hasBaseList).filterMap
      fun candidate => (candidate.symbol.bind Symbol.type?).bind read) := by
  rw [Compilation.withShape_filterMap, Compilation.withShape_filterMap]
  exact h.declaredTypes.flatMap_right _

theorem constructorStage_perm (h : input.Reordered other) :
    (constructorStage.contexts (.ofInput input)).Perm
      (constructorStage.contexts (.ofInput other)) :=
  read_perm h _ ConstructorContext.ofCandidate_ignoresPlace

theorem dependencyPropertyStage_perm (h : input.Reordered other) :
    (dependencyPropertyStage.contexts (.ofInput input)).Perm
      (dependencyPropertyStage.contexts (.ofInput other)) :=
  read_perm h _ fun _ => rfl

theorem bindableStage_perm (h : input.Reordered other) :
    (bindableStage.contexts (.ofInput input)).Perm (bindableStage.contexts (.ofInput other)) :=
  read_perm h _ fun _ => rfl

theorem extendedEnumStage_perm (h : input.Reordered other) :
    (extendedEnumStage.contexts (.ofInput input)).Perm
      (extendedEnumStage.contexts (.ofInput other)) :=
  read_perm h _ fun _ => rfl

theorem unloadOverrideStage_perm (h : input.Reordered other) :
    (unloadOverrideStage.contexts (.ofInput input)).Perm
      (unloadOverrideStage.contexts (.ofInput other)) :=
  distinct_perm (bases_perm h _)

theorem propertyValuesStage_perm (h : input.Reordered other) :
    (propertyValuesStage.contexts (.ofInput input)).Perm
      (propertyValuesStage.contexts (.ofInput other)) :=
  distinct_perm (bases_perm h _)

/-- What is read from the candidates among the declarations of a type. -/
private def readFrom {β : Type} (name : String) (accepts : Kind → Bool)
    (read : AttributeCandidate → Option β) (type : TypeSymbol) : List β :=
  (type.candidates name accepts).filterMap read

/-- If only types count, one thing at most is read from each, and names tell apart what is read. -/
private theorem eq_of_readFrom (hu : input.Unambiguous) (name : String) (accepts : Kind → Bool)
    {β : Type} {read : AttributeCandidate → Option β} {fullName : β → String}
    (hread : ∀ candidate found, read candidate = some found →
      ∃ type, candidate.symbol = .type type ∧ fullName found = type.fullName) :
    ∀ a ∈ input.declaredTypes.flatMap (readFrom name accepts read),
      ∀ b ∈ input.declaredTypes.flatMap (readFrom name accepts read),
        fullName a = fullName b → a = b := by
  have howner : ∀ found ∈ input.declaredTypes.flatMap (readFrom name accepts read),
      ∃ type ∈ input.declaredTypes, fullName found = type.fullName ∧
        (candidate? name accepts none type.declaredKind (.type type)).bind read = some found := by
    intro found hm
    obtain ⟨type, ht, hf⟩ := List.mem_flatMap.mp hm
    obtain ⟨candidate, hc, hr⟩ := List.mem_filterMap.mp hf
    obtain ⟨owner, hs, hn⟩ := hread candidate found hr
    rcases TypeSymbol.mem_candidates hc with ⟨hone, htype⟩ | ⟨hnone, -⟩
    · obtain rfl : owner = type := Symbol.type.inj (hs.symm.trans htype)
      exact ⟨owner, ht, hn, by rw [hone]; exact hr⟩
    · simp [hs, Symbol.type?] at hnone
  intro a ha b hb he
  obtain ⟨type, ht, hna, hra⟩ := howner a ha
  obtain ⟨type', ht', hnb, hrb⟩ := howner b hb
  obtain rfl := hu.injective type ht type' ht' (hna.symm.trans (he.trans hnb))
  exact Option.some.inj (hra.symm.trans hrb)

theorem serviceStage_eq (h : input.Reordered other) (hu : input.Unambiguous) :
    serviceStage.contexts (.ofInput input) = serviceStage.contexts (.ofInput other) := by
  have hread : ∀ candidate found, ServiceEntry.ofCandidate candidate = some found →
      ∃ type, candidate.symbol = .type type ∧
        found.implementation.fullName = type.fullName := by
    intro candidate found hf
    unfold ServiceEntry.ofCandidate at hf
    split at hf
    · next type data hs hd =>
      split at hf
      · simp at hf
      · obtain ⟨lifetime, -, rfl⟩ := Option.map_eq_some_iff.mp hf
        exact ⟨type, hs, rfl⟩
    · simp at hf
  let found := readFrom Names.serviceAttribute (· == .classDeclaration) ServiceEntry.ofCandidate
  have hfound (input : CompilationInput) :
      ((Compilation.ofInput input).withAttribute Names.serviceAttribute
        (· == .classDeclaration)).filterMap ServiceEntry.ofCandidate =
      input.declaredTypes.flatMap found :=
    Compilation.withAttribute_filterMap input _ fun _ => rfl
  have hrank {a b : ServiceLifetime} : a.rank = b.rank ↔ a = b := by
    cases a <;> cases b <;> decide
  let key (entry : ServiceEntry) : Nat ×ₗ String :=
    toLex (entry.lifetime.rank, entry.implementation.fullName)
  have hle (a b : ServiceEntry) : a.precedes b = decide (key a ≤ key b) := by
    rw [ServiceEntry.precedes, ← Bool.decide_and, ← Bool.decide_or, decide_eq_decide,
      Prod.Lex.toLex_le_toLex, hrank]
  have hsort := mergeSort_eq_of_perm key (fun a _ b _ => hle a b)
    (fun a ha b hb he => eq_of_readFrom hu _ _ hread a ha b hb (congrArg Prod.snd he))
    (h.declaredTypes.flatMap_right found)
  show [ServiceContext.mk (List.mergeSort _ _)] = [ServiceContext.mk (List.mergeSort _ _)]
  rw [hfound, hfound, hsort]

theorem httpClientStage_eq (h : input.Reordered other) (hu : input.Unambiguous) :
    httpClientStage.contexts (.ofInput input) = httpClientStage.contexts (.ofInput other) := by
  have hread : ∀ candidate found, HttpClientEntry.ofCandidate candidate = some found →
      ∃ type, candidate.symbol = .type type ∧
        found.implementation.fullName = type.fullName := by
    intro candidate found hf
    unfold HttpClientEntry.ofCandidate at hf
    split at hf
    · next type data hs hd =>
      split at hf
      · obtain rfl := Option.some.inj hf
        exact ⟨type, hs, rfl⟩
      · simp at hf
    · simp at hf
  let found :=
    readFrom Names.httpClientAttribute (· == .classDeclaration) HttpClientEntry.ofCandidate
  have hfound (input : CompilationInput) :
      ((Compilation.ofInput input).withAttribute Names.httpClientAttribute
        (· == .classDeclaration)).filterMap HttpClientEntry.ofCandidate =
      input.declaredTypes.flatMap found :=
    Compilation.withAttribute_filterMap input _ fun _ => rfl
  have hsort := sortByText_eq (fun entry : HttpClientEntry => entry.implementation.fullName)
    (eq_of_readFrom hu _ _ hread) (h.declaredTypes.flatMap_right found)
  show [HttpClientContext.mk (sortByText _ _)] = [HttpClientContext.mk (sortByText _ _)]
  rw [hfound, hfound, hsort]

/-- If only members count, and are grouped by the types that contain them, no group holds members of
two types. -/
private theorem groups_perm (h : input.Reordered other) (hu : input.Unambiguous) (name : String)
    (accepts : Kind → Bool) {κ ν : Type}
    [DecidableEq κ] {read : AttributeCandidate → Option (κ × ν)} (hr : IgnoresPlace read)
    (keyOf : TypeSymbol → κ) (hkey : ∀ a b, keyOf a = keyOf b → a.fullName = b.fullName)
    (hread : ∀ candidate found, read candidate = some found →
      candidate.symbol.type? = none ∧
        ∀ type, candidate.containing = some type → found.1 = keyOf type) :
    (groupByKey (((Compilation.ofInput input).withAttribute name accepts).filterMap read)).Perm
      (groupByKey (((Compilation.ofInput other).withAttribute name accepts).filterMap read)) := by
  rw [Compilation.withAttribute_filterMap input name hr,
    Compilation.withAttribute_filterMap other name hr]
  refine groupByKey_perm (valuesOf_flatMap keyOf h.declaredTypes ?_ ?_)
  · exact fun type _ => type.key_of_candidates hread
  · exact fun a ha b hb he => hu.injective a ha b hb (hkey a b he)

theorem commandStage_perm (h : input.Reordered other) (hu : input.Unambiguous) :
    (commandStage.contexts (.ofInput input)).Perm (commandStage.contexts (.ofInput other)) := by
  have hkey (a b : TypeSymbol) (he : Hierarchy.ofSymbol a = .ofSymbol b) :
      a.fullName = b.fullName :=
    congrArg (fun hierarchy : Hierarchy => hierarchy.target.fullName) he
  have hgroups := groups_perm h hu Names.commandAttribute (· == .methodDeclaration)
    CommandMethod.ofCandidate_ignoresPlace _ hkey fun _ _ => CommandMethod.ofCandidate_key
  exact sortByText_perm _ (hgroups.map _)

theorem fieldAccessorStage_perm (h : input.Reordered other) (hu : input.Unambiguous) :
    (fieldAccessorStage.contexts (.ofInput input)).Perm
      (fieldAccessorStage.contexts (.ofInput other)) := by
  have hgroups := groups_perm h hu Names.fieldAccessorAttribute (· == .propertyDeclaration)
    FieldAccessorEntry.ofCandidate_ignoresPlace FieldAccessorEntry.keyOf
    (fun a b he => congrArg Prod.snd he) fun _ _ => FieldAccessorEntry.ofCandidate_key
  exact sortByText_perm _ (hgroups.map _)

end Stages

end SourceGen
