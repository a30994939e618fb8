import SourceGen.Proofs.Generator.Candidates

/-! The hints of the files that the generators of a program emit. Most generators make one file of a
type, however often it is declared; some make one for each of its declarations. -/

namespace SourceGen

section Owners

variable {α β κ : Type} [DecidableEq κ] {owners : List α} {owned : α → List β} {key : β → κ}
  {keyOf : α → κ}

/-- What has the key of an owner was made of it, as often as it occurs. -/
private theorem count_owned (hkey : ∀ owner, ∀ item ∈ owned owner, key item = keyOf owner)
    (hone : ∀ a ∈ owners, ∀ b ∈ owners, keyOf a = keyOf b → a = b) {owner : α}
    (ho : owner ∈ owners) {part : List α} (hs : part ⊆ owners) :
    ((part.flatMap owned).map key).count (keyOf owner) =
      part.countP (fun other => keyOf other = keyOf owner) * (owned owner).length := by
  -- The owners are told apart among all of them, while the induction goes over some.
  induction part with
  | nil => simp
  | cons first rest ih =>
    obtain ⟨hf, hr⟩ := List.cons_subset.mp hs
    rw [List.flatMap_cons, List.map_append, List.count_append, ih hr, List.countP_cons]
    by_cases h : keyOf first = keyOf owner
    · obtain rfl := hone first hf owner ho h
      have hall : ((owned first).map key).count (keyOf first) = (owned first).length := by
        rw [List.count_eq_length.mpr, List.length_map]
        intro found hm
        obtain ⟨item, hi, rfl⟩ := List.mem_map.mp hm
        exact (hkey first item hi).symm
      rw [hall]
      simp [Nat.add_mul, Nat.add_comm]
    · have hnone : ((owned first).map key).count (keyOf owner) = 0 := by
        rw [List.count_eq_zero]
        intro hm
        obtain ⟨item, hi, he⟩ := List.mem_map.mp hm
        exact h ((hkey first item hi).symm.trans he)
      simp [hnone, h]

/-- What is made of owners has different keys exactly if one thing at most is made of each owner,
counted as often as it occurs. -/
theorem nodup_owned_iff (hkey : ∀ owner, ∀ item ∈ owned owner, key item = keyOf owner)
    (hone : ∀ a ∈ owners, ∀ b ∈ owners, keyOf a = keyOf b → a = b) :
    ((owners.flatMap owned).map key).Nodup ↔
      ∀ owner ∈ owners,
        owners.countP (fun other => keyOf other = keyOf owner) * (owned owner).length ≤ 1 := by
  rw [List.nodup_iff_count_le_one]
  constructor
  · intro h owner ho
    rw [← count_owned hkey hone ho (List.Subset.refl _)]
    exact h _
  · intro h found
    by_cases hm : found ∈ (owners.flatMap owned).map key
    · obtain ⟨item, hi, rfl⟩ := List.mem_map.mp hm
      obtain ⟨owner, ho, hi⟩ := List.mem_flatMap.mp hi
      rw [hkey owner item hi, count_owned hkey hone ho (List.Subset.refl _)]
      exact h owner ho
    · rw [List.count_eq_zero.mpr hm]
      exact Nat.zero_le 1

end Owners

namespace CompilationInput

/-- Whether metadata names tell apart the types that files list. One type may be listed several
times. -/
def WellNamed (input : CompilationInput) : Prop :=
  ∀ a ∈ input.declarations.flatMap (·.2), ∀ b ∈ input.declarations.flatMap (·.2),
    a.fullMetadataName = b.fullMetadataName → a = b

theorem WellNamed.injective {input : CompilationInput} (h : input.WellNamed) :
    ∀ a ∈ input.declaredTypes, ∀ b ∈ input.declaredTypes,
      a.fullMetadataName = b.fullMetadataName → a = b :=
  fun a ha b hb => h a (mem_listed ha) b (mem_listed hb)

/-- How often a type is declared. -/
def declarationsOf (input : CompilationInput) (type : TypeSymbol) : Nat :=
  input.declaredTypes.countP fun other => other.fullMetadataName = type.fullMetadataName

end CompilationInput

namespace CompilationStage

variable {Context : Type} {stage : CompilationStage Context}

/-- The hints of the files that a generator emits for a program. -/
def hints (stage : CompilationStage Context) (layout : Layout) (compilation : Compilation) :
    List String :=
  ((stage.contexts compilation).filter (stage.fits layout)).flatMap fun context =>
    (stage.units context).map (·.1)

/-- The units of work of the declaration of a type for which files are emitted. -/
def emittedFrom (stage : CompilationStage Context) (layout : Layout) (name : String)
    (accepts : Kind → Bool) (read : AttributeCandidate → Option Context) (type : TypeSymbol) :
    List Context :=
  ((type.candidates name accepts).filterMap read).filter (stage.fits layout)

section OneFile

variable (hintOf : Context → String) {ending : String}

private theorem hints_eq
    (hunits : ∀ context, (stage.units context).map (·.1) = [hintOf context ++ ending])
    (layout : Layout) (compilation : Compilation) :
    stage.hints layout compilation =
      (((stage.contexts compilation).filter (stage.fits layout)).map hintOf).map (· ++ ending) := by
  simp only [hints, hunits, List.map_map]
  exact List.map_eq_flatMap.symm

private theorem append_injective (ending : String) : Function.Injective (· ++ ending) :=
  fun _ _ h => (String.append_left_inj ending).mp h

/-- A generator that makes one file of each unit of work, all of which belong to different types. -/
private theorem hints_nodup
    (hunits : ∀ context, (stage.units context).map (·.1) = [hintOf context ++ ending])
    {compilation : Compilation} (h : ((stage.contexts compilation).map hintOf).Nodup)
    (layout : Layout) : (stage.hints layout compilation).Nodup := by
  rw [hints_eq hintOf hunits, List.nodup_map_iff (append_injective ending)]
  exact h.sublist (List.filter_sublist.map hintOf)

/-- A generator that makes one file of each declaration with an attribute. -/
theorem hints_nodup_iff {name : String} {accepts : Kind → Bool}
    {read : AttributeCandidate → Option Context} {input : CompilationInput}
    (hcontexts : stage.contexts (.ofInput input) =
      ((Compilation.ofInput input).withAttribute name accepts).filterMap read)
    (hr : IgnoresPlace read)
    (hunits : ∀ context, (stage.units context).map (·.1) = [hintOf context ++ ending])
    (hread : ∀ (type : TypeSymbol), ∀ candidate ∈ type.candidates name accepts, ∀ context,
      read candidate = some context → hintOf context = type.fullMetadataName)
    (hnames : input.WellNamed) (layout : Layout) :
    (stage.hints layout (.ofInput input)).Nodup ↔
      ∀ type ∈ input.declaredTypes,
        input.declarationsOf type *
          (stage.emittedFrom layout name accepts read type).length ≤ 1 := by
  have hcollected : (stage.contexts (.ofInput input)).filter (stage.fits layout) =
      input.declaredTypes.flatMap (stage.emittedFrom layout name accepts read) := by
    rw [hcontexts, Compilation.withAttribute_filterMap input name hr, List.filter_flatMap]
    rfl
  rw [hints_eq hintOf hunits, List.nodup_map_iff (append_injective ending), hcollected]
  refine nodup_owned_iff (fun type context hm => ?_) hnames.injective
  obtain ⟨candidate, hc, hf⟩ := List.mem_filterMap.mp (List.mem_of_mem_filter hm)
  exact hread type candidate hc context hf

end OneFile

/-- A generator that makes one file for all that it collects. -/
private theorem hints_nodup_single {compilation : Compilation} {context : Context} {hint : String}
    (hcontexts : stage.contexts compilation = [context])
    (hunits : (stage.units context).map (·.1) = [hint]) (layout : Layout) :
    (stage.hints layout compilation).Nodup := by
  rw [hints, hcontexts, List.filter_singleton]
  cases stage.fits layout context <;> simp [hunits]

end CompilationStage

section Types

variable {input : CompilationInput}

/-- Different things that are made of declared types, one at most of each type, have different
hints. -/
private theorem hints_of_types_nodup (hnames : input.WellNamed) {α : Type}
    {made : TypeSymbol → Option α} {hintOf : α → String}
    (hhint : ∀ type item, made type = some item → hintOf item = type.fullMetadataName)
    {items : List α} (hn : items.Nodup)
    (hmade : ∀ item ∈ items, ∃ type ∈ input.declaredTypes, made type = some item) :
    (items.map hintOf).Nodup := by
  refine List.Nodup.map_on (fun a ha b hb h => ?_) hn
  obtain ⟨type, ht, hma⟩ := hmade a ha
  obtain ⟨other, ho, hmb⟩ := hmade b hb
  rw [hhint type a hma, hhint other b hmb] at h
  obtain rfl := hnames.injective type ht other ho h
  exact Option.some.inj (hma.symm.trans hmb)

/-- The hints of files that are made of groups of members, one for each type. -/
private theorem groups_hints_nodup (hnames : input.WellNamed) (name : String)
    (accepts : Kind → Bool) {κ ν : Type}
    [DecidableEq κ] {read : AttributeCandidate → Option (κ × ν)} (hr : IgnoresPlace read)
    {keyOf : TypeSymbol → κ} (hintOf : κ → String)
    (hhint : ∀ type, hintOf (keyOf type) = type.fullMetadataName)
    (hread : ∀ candidate found, read candidate = some found →
      candidate.symbol.type? = none ∧
        ∀ type, candidate.containing = some type → found.1 = keyOf type) :
    ((groupByKey (((Compilation.ofInput input).withAttribute name accepts).filterMap read)).map
      fun group => hintOf group.1).Nodup := by
  rw [Compilation.withAttribute_filterMap input name hr]
  let entries := input.declaredTypes.flatMap fun type =>
    (type.candidates name accepts).filterMap read
  have hmade : ∀ key ∈ (groupByKey entries).map (·.1), ∃ type ∈ input.declaredTypes,
      some (keyOf type) = some key := by
    intro key hk
    obtain ⟨group, hg, rfl⟩ := List.mem_map.mp hk
    obtain ⟨hv, hne⟩ := mem_groupByKey.mp hg
    obtain ⟨value, hm⟩ := List.exists_mem_of_ne_nil _ (hv ▸ hne)
    obtain ⟨entry, he, hkey⟩ := List.mem_filterMap.mp hm
    obtain ⟨type, ht, hf⟩ := List.mem_flatMap.mp he
    refine ⟨type, ht, ?_⟩
    rw [← type.key_of_candidates hread entry hf]
    split at hkey
    · next h => rw [h]
    · simp at hkey
  have hkeys := hints_of_types_nodup hnames (fun type key h => Option.some.inj h ▸ hhint type)
    (groupByKey_nodup entries) hmade
  rwa [List.map_map] at hkeys

/-- The hints of files that are made of types with base types, without repetitions. -/
private theorem bases_hints_nodup (hnames : input.WellNamed) {Context : Type} [DecidableEq Context]
    {read : TypeSymbol → Option Context} {hintOf : Context → String}
    (hread : ∀ type context, read type = some context → hintOf context = type.fullMetadataName) :
    ((distinct (((Compilation.ofInput input).withShape Site.hasBaseList).filterMap
      fun candidate => (candidate.symbol.bind Symbol.type?).bind read)).map hintOf).Nodup := by
  refine hints_of_types_nodup hnames hread (distinct_nodup _) fun context hm => ?_
  rw [mem_distinct, Compilation.withShape_filterMap] at hm
  obtain ⟨type, ht, hm⟩ := List.mem_flatMap.mp hm
  split at hm
  · exact ⟨type, ht, Option.mem_toList.mp hm⟩
  · simp at hm

end Types

/-- How many files a generator emits for each declaration of a type. Those that make one file of all
that belongs to a type, or of the whole program, emit none for a declaration. -/
def GeneratorKind.filesPerDeclaration (layout : Layout) (type : TypeSymbol) : GeneratorKind → Nat
  | constructor =>
    (constructorStage.emittedFrom layout Names.generatedConstructorAttribute
      (· == .constructorDeclaration) ConstructorContext.ofCandidate type).length
  | dependencyProperty =>
    (dependencyPropertyStage.emittedFrom layout Names.dependencyPropertyAttribute
      Kind.isTypeDeclaration DependencyPropertyContext.ofCandidate type).length
  | bindable =>
    (bindableStage.emittedFrom layout Names.bindableAttribute (· == .classDeclaration)
      BindableContext.ofCandidate type).length
  | extendedEnum =>
    (extendedEnumStage.emittedFrom layout Names.extendedEnumAttribute (· == .enumDeclaration)
      ExtendedEnumContext.ofCandidate type).length
  | _ => 0

section Stages

variable {input : CompilationInput} (layout : Layout)

theorem constructorStage_hints (hnames : input.WellNamed) :
    (constructorStage.hints layout (.ofInput input)).Nodup ↔
      ∀ type ∈ input.declaredTypes,
        input.declarationsOf type *
          GeneratorKind.constructor.filesPerDeclaration layout type ≤ 1 := by
  refine CompilationStage.hints_nodup_iff (fun context => context.hierarchy.fileHint) rfl
    ConstructorContext.ofCandidate_ignoresPlace (fun _ => rfl) ?_ hnames layout
  intro type candidate hc context hread
  unfold ConstructorContext.ofCandidate at hread
  split at hread
  · next method owner marker rest hs ho hm =>
    rcases TypeSymbol.mem_candidates hc with ⟨-, hsymbol⟩ | ⟨-, howner⟩
    · simp [hs] at hsymbol
    · obtain rfl := Option.some.inj (ho.symm.trans howner)
      unfold ConstructorContext.ofSymbols at hread
      dsimp only at hread
      split at hread
      · obtain rfl := Option.some.inj hread
        rfl
      · simp at hread
  · simp at hread

/-- A candidate that is a type, among those of a type, is this type. -/
private theorem eq_of_candidate {type owner : TypeSymbol} {name : String} {accepts : Kind → Bool}
    {candidate : AttributeCandidate} (h : candidate ∈ type.candidates name accepts)
    (hs : candidate.symbol.type? = some owner) : owner = type := by
  rcases TypeSymbol.mem_candidates h with ⟨-, hsymbol⟩ | ⟨hnone, -⟩
  · rw [hsymbol] at hs
    exact (Option.some.inj hs).symm
  · simp [hs] at hnone

theorem dependencyPropertyStage_hints (hnames : input.WellNamed) :
    (dependencyPropertyStage.hints layout (.ofInput input)).Nodup ↔
      ∀ type ∈ input.declaredTypes,
        input.declarationsOf type *
          GeneratorKind.dependencyProperty.filesPerDeclaration layout type ≤ 1 := by
  refine CompilationStage.hints_nodup_iff (fun context => context.hierarchy.fileHint) rfl
    (fun _ => rfl) (fun _ => rfl) ?_ hnames layout
  intro type candidate hc context hread
  unfold DependencyPropertyContext.ofCandidate at hread
  split at hread
  · next owner markers hs hm =>
    obtain rfl := Option.some.inj hread
    obtain rfl := eq_of_candidate hc (show candidate.symbol.type? = some owner by rw [hs]; rfl)
    rfl
  · simp at hread

theorem bindableStage_hints (hnames : input.WellNamed) :
    (bindableStage.hints layout (.ofInput input)).Nodup ↔
      ∀ type ∈ input.declaredTypes,
        input.declarationsOf type * GeneratorKind.bindable.filesPerDeclaration layout type ≤ 1 := by
  refine CompilationStage.hints_nodup_iff (fun context => context.hierarchy.fileHint) rfl
    (fun _ => rfl) (fun _ => rfl) ?_ hnames layout
  intro type candidate hc context hread
  obtain ⟨owner, hs, hread⟩ := Option.bind_eq_some_iff.mp hread
  obtain rfl := eq_of_candidate hc hs
  unfold BindableContext.ofSymbol at hread
  split at hread
  · obtain rfl := Option.some.inj hread
    rfl
  · simp [Except.toOption] at hread
  · simp [Except.toOption] at hread

theorem extendedEnumStage_hints (hnames : input.WellNamed) :
    (extendedEnumStage.hints layout (.ofInput input)).Nodup ↔
      ∀ type ∈ input.declaredTypes,
        input.declarationsOf type *
          GeneratorKind.extendedEnum.filesPerDeclaration layout type ≤ 1 := by
  refine CompilationStage.hints_nodup_iff ExtendedEnumContext.fileHint rfl
    (fun _ => rfl) (fun _ => rfl) ?_ hnames layout
  intro type candidate hc context hread
  obtain ⟨owner, hs, hread⟩ := Option.bind_eq_some_iff.mp hread
  obtain rfl := eq_of_candidate hc hs
  unfold ExtendedEnumContext.ofSymbol at hread
  cases hm : collectAll ExtendedEnumMember.ofSymbol (owner.fields.filter (·.isConstant)) with
  | error failure => simp [hm, Except.map, Except.toOption] at hread
  | ok members =>
    rw [hm] at hread
    obtain rfl := Option.some.inj hread
    rfl

theorem commandStage_hints (hnames : input.WellNamed) :
    (commandStage.hints layout (.ofInput input)).Nodup := by
  have hgroups := groups_hints_nodup hnames Names.commandAttribute (· == .methodDeclaration)
    CommandMethod.ofCandidate_ignoresPlace Hierarchy.fileHint (fun _ => rfl)
    fun _ _ => CommandMethod.ofCandidate_key
  refine CompilationStage.hints_nodup (fun context => context.hierarchy.fileHint) (fun _ => rfl) ?_
    layout
  refine ((List.mergeSort_perm _ _).map _).nodup_iff.mpr ?_
  rw [List.map_map]
  exact hgroups

theorem fieldAccessorStage_hints (hnames : input.WellNamed) :
    (fieldAccessorStage.hints layout (.ofInput input)).Nodup := by
  have hgroups := groups_hints_nodup hnames Names.fieldAccessorAttribute (· == .propertyDeclaration)
    FieldAccessorEntry.ofCandidate_ignoresPlace (fun key => key.1.fileHint) (fun _ => rfl)
    fun _ _ => FieldAccessorEntry.ofCandidate_key
  refine CompilationStage.hints_nodup (fun context => context.hierarchy.fileHint) (fun _ => rfl) ?_
    layout
  refine ((List.mergeSort_perm _ _).map _).nodup_iff.mpr ?_
  rw [List.map_map]
  exact hgroups

theorem unloadOverrideStage_hints (hnames : input.WellNamed) :
    (unloadOverrideStage.hints layout (.ofInput input)).Nodup := by
  refine CompilationStage.hints_nodup (fun context => context.hierarchy.fileHint) (fun _ => rfl)
    (bases_hints_nodup hnames fun type context hread => ?_) layout
  split at hread
  · obtain rfl := Option.some.inj hread
    rfl
  · simp at hread

theorem propertyValuesStage_hints (hnames : input.WellNamed) :
    (propertyValuesStage.hints layout (.ofInput input)).Nodup := by
  refine CompilationStage.hints_nodup (fun context => context.hierarchy.fileHint) (fun _ => rfl)
    (bases_hints_nodup hnames fun type context hread => ?_) layout
  split at hread
  · unfold PropertyValuesContext.ofSymbol at hread
    cases hp : collectAll PropertySnapshot.ofSymbol
        (type.properties.filter (·.accessibility == .publicAccess)) with
    | error failure => simp [hp, Except.map, Except.toOption] at hread
    | ok properties =>
      rw [hp] at hread
      obtain rfl := Option.some.inj hread
      rfl
  · simp at hread

theorem serviceStage_hints (compilation : Compilation) :
    (serviceStage.hints layout compilation).Nodup :=
  CompilationStage.hints_nodup_single rfl rfl layout

theorem httpClientStage_hints (compilation : Compilation) :
    (httpClientStage.hints layout compilation).Nodup :=
  CompilationStage.hints_nodup_single rfl rfl layout

end Stages

end SourceGen
