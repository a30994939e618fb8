import SourceGen.Proofs.Generator.Hints
import SourceGen.Proofs.Session.Sources

/-! Hints that a generator uses twice in a run. For a program it does so exactly if it makes more
than one file for the declarations of a type, and the run reports that. -/

namespace SourceGen

namespace RunInput

/-- The files of a generator are those of its units of work that can be emitted. -/
theorem hintsOf_results (run : RunInput) (layout : Layout) (kind : GeneratorKind) :
    hintsOf (run.results layout kind) =
      ((kind.origin.gather run).contexts.filter (kind.stage.fits layout)).flatMap fun context =>
        (kind.stage.units context).map (·.1) := by
  have hone (context : kind.Context) :
      hintsOf (Outcome.undisturbed [] layout ⟨kind, context⟩).results =
        if kind.stage.fits layout context then (kind.stage.units context).map (·.1) else [] := by
    by_cases h : kind.stage.fits layout context = true
    · simp [hintsOf, Outcome.undisturbed, WorkUnit.emit, Stage.emit, h, Outcome.results,
        Stage.files, List.filterMap_map]
    · simp [hintsOf, Outcome.undisturbed, WorkUnit.emit, Stage.emit, h, Outcome.results]
  calc hintsOf (run.results layout kind)
    _ = (kind.origin.gather run).contexts.flatMap fun context =>
          hintsOf (Outcome.undisturbed [] layout ⟨kind, context⟩).results :=
        List.filterMap_flatMap
    _ = (kind.origin.gather run).contexts.flatMap fun context =>
          if kind.stage.fits layout context then (kind.stage.units context).map (·.1) else [] :=
        List.flatMap_congr fun context _ => hone context
    _ = ((kind.origin.gather run).contexts.filter (kind.stage.fits layout)).flatMap fun context =>
          (kind.stage.units context).map (·.1) := by
        induction (kind.origin.gather run).contexts with
        | nil => rfl
        | cons context rest ih =>
          rw [List.flatMap_cons, List.filter_cons, ih]
          split <;> simp

/-- Files of a generator for a program have different hints, as long as it makes one file at most of
all the declarations of a type together. -/
theorem hints_nodup_iff {input : CompilationInput} (hnames : input.WellNamed) {run : RunInput}
    (hprogram : run.compilation = some (.ofInput input)) (layout : Layout) {kind : GeneratorKind}
    (hk : kind.origin.isProgram = true) :
    (hintsOf (run.results layout kind)).Nodup ↔
      ∀ type ∈ input.declaredTypes,
        input.declarationsOf type * kind.filesPerDeclaration layout type ≤ 1 := by
  obtain ⟨markers, compilation, files⟩ := run
  obtain rfl : compilation = some (.ofInput input) := hprogram
  rw [hintsOf_results]
  have hnone {hints : List String} (h : hints.Nodup) :
      hints.Nodup ↔ ∀ type ∈ input.declaredTypes, input.declarationsOf type * 0 ≤ 1 :=
    iff_of_true h fun _ _ => Nat.zero_le 1
  cases kind with
  | constructor => exact constructorStage_hints layout hnames
  | dependencyProperty => exact dependencyPropertyStage_hints layout hnames
  | bindable => exact bindableStage_hints layout hnames
  | extendedEnum => exact extendedEnumStage_hints layout hnames
  | command => exact hnone (commandStage_hints layout hnames)
  | fieldAccessor => exact hnone (fieldAccessorStage_hints layout hnames)
  | unloadOverride => exact hnone (unloadOverrideStage_hints layout hnames)
  | propertyValues => exact hnone (propertyValuesStage_hints layout hnames)
  | service => exact hnone (serviceStage_hints layout _)
  | httpClient => exact hnone (httpClientStage_hints layout _)
  | attributes | resource | endpoints | identity =>
    simp [GeneratorKind.origin, Origin.isProgram] at hk

end RunInput

section Duplicates

open GeneratedSource

/-- The wording of a failure tells whether a hint was used before. -/
theorem GeneratedSource.capacity_ne_duplicate (kind : GeneratorKind) (hint : String) :
    ofFailure kind (.capacity kind) ≠ ofFailure kind (.duplicateHint kind hint) := by
  intro h
  have hm : kind.name ++ " failed: capacity overflow" =
      kind.name ++ " failed: duplicate hint name '" ++ hint ++ "'" := congrArg text h
  -- After the name of the generator and nine characters in common, the wordings differ.
  rw [String.append_assoc, String.append_assoc, String.append_right_inj] at hm
  have hl := congrArg (fun text => text.toList.drop 9 |>.head?) hm
  simp [String.toList_append] at hl

/-- If files fail only by their size, then a hint is reported as used before exactly if it was. -/
theorem addSources_duplicate_iff {kind : GeneratorKind} {hints : List String}
    {results : List (Except Failure GeneratedFile)}
    (hfail : ∀ failure, .error failure ∈ results → failure = .capacity kind) :
    (∃ hint, ofFailure kind (.duplicateHint kind hint) ∈ addSources kind hints results) ↔
      ¬ ((hintsOf results).Nodup ∧ ∀ hint ∈ hintsOf results, hint ∉ hints) := by
  induction results generalizing hints with
  | nil => simp [addSources, hintsOf]
  | cons first rest ih =>
    have hrest : ∀ failure, .error failure ∈ rest → failure = .capacity kind :=
      fun failure hm => hfail failure (List.mem_cons_of_mem _ hm)
    cases first with
    | error failure =>
      obtain rfl := hfail failure (by simp)
      have hne (hint : String) := (capacity_ne_duplicate kind hint).symm
      simp only [addSources, List.mem_cons, hne, false_or]
      exact ih hrest
    | ok file =>
      by_cases hm : file.hint ∈ hints
      · refine iff_of_true ⟨file.hint, by simp [addSources, hm]⟩ fun h => ?_
        exact h.2 file.hint (by simp [hintsOf]) hm
      · have hne (hint : String) :
            ofFailure kind (.duplicateHint kind hint) ≠ ⟨kind, some file.hint, file.text⟩ :=
          fun h => Option.some_ne_none _ (congrArg hint? h).symm
        simp only [addSources, if_neg hm, List.mem_cons, hne, false_or]
        rw [ih hrest]
        refine not_congr ?_
        simp only [hintsOf, List.filterMap_cons, List.nodup_cons, List.mem_cons]
        grind

end Duplicates

theorem GeneratorKind.stage_kind (kind : GeneratorKind) : kind.stage.kind = kind := by
  cases kind <;> rfl

/-- A unit of work can fail only because a line is too long. -/
theorem RunInput.results_error {run : RunInput} {layout : Layout} {kind : GeneratorKind}
    {failure : Failure} (h : .error failure ∈ run.results layout kind) :
    failure = .capacity kind := by
  obtain ⟨context, -, hm⟩ := List.mem_flatMap.mp h
  by_cases hf : kind.stage.fits layout context = true
  · simp [Outcome.undisturbed, WorkUnit.emit, Stage.emit, hf, Outcome.results] at hm
  · simpa [Outcome.undisturbed, WorkUnit.emit, Stage.emit, hf, Outcome.results,
      kind.stage_kind] using hm

namespace Session

variable {session : Session} {stop : Cancellation} {result : RunResult}

/-- The sources of a run are those that the generators add one by one. -/
theorem mem_sources (hs : session.Sound) (hrun : (session.run stop).1 = .ok result)
    {source : GeneratedSource} :
    source ∈ result.sources ↔
      source ∈ addSources source.generator []
        (session.input.results session.options.layout source.generator) := by
  rw [(run_result hs hrun).1, RunInput.sources, List.mem_mergeSort, List.flatMap_map]
  simp only [StageRun.sources_eq]
  constructor
  · intro h
    obtain ⟨kind, -, hm⟩ := List.mem_flatMap.mp h
    rwa [addSources_generator hm]
  · exact fun h => List.mem_flatMap.mpr ⟨_, GeneratorKind.mem_all _, h⟩

/-- A run reports that a hint was used before exactly if two files of a generator have one hint. -/
theorem duplicate_mem_sources_iff (hs : session.Sound) (hrun : (session.run stop).1 = .ok result)
    (kind : GeneratorKind) :
    (∃ hint, .ofFailure kind (.duplicateHint kind hint) ∈ result.sources) ↔
      ¬ (hintsOf (session.input.results session.options.layout kind)).Nodup := by
  have hmem (hint : String) : .ofFailure kind (.duplicateHint kind hint) ∈ result.sources ↔
      .ofFailure kind (.duplicateHint kind hint) ∈
        addSources kind [] (session.input.results session.options.layout kind) :=
    mem_sources hs hrun
  rw [exists_congr hmem, addSources_duplicate_iff fun _ => RunInput.results_error]
  simp

/-- A generator emits two files with one hint for a program, and a run reports that, exactly if it
emits more than one for the declarations of some type. -/
theorem duplicate_hint_iff {options : GeneratorOptions} (hreachable : Reachable options session)
    {program : CompilationInput} (hprogram : session.compilation = some (.ofInput program))
    (hnames : program.WellNamed) (hrun : (session.run stop).1 = .ok result) {kind : GeneratorKind}
    (hk : kind.origin.isProgram = true) :
    ((hintsOf (session.input.results session.options.layout kind)).Nodup ↔
      ∀ type ∈ program.declaredTypes,
        program.declarationsOf type * kind.filesPerDeclaration session.options.layout type ≤ 1) ∧
    ((∃ hint, .ofFailure kind (.duplicateHint kind hint) ∈ result.sources) ↔
      ∃ type ∈ program.declaredTypes,
        1 < program.declarationsOf type *
          kind.filesPerDeclaration session.options.layout type) := by
  have hinput : session.input.compilation = some (.ofInput program) := hprogram
  have hhints := RunInput.hints_nodup_iff hnames hinput session.options.layout hk
  refine ⟨hhints, ?_⟩
  rw [duplicate_mem_sources_iff hreachable.sound hrun, hhints]
  push Not
  rfl

/-- A page that one file declares once. -/
theorem duplicate_hint_iff_page :
    let marker := TypeSymbol.named .classType "Snap.Hutao.Core.Annotation"
      "BindableCustomPropertyProviderAttribute"
    let page := { TypeSymbol.named .classType "App" "Page" with attributes := [⟨marker, [], []⟩] }
    let program : CompilationInput := { assemblyName := "App", declarations := [("A.cs", [page])] }
    let session := Session.change { options := { emitMarkers := false } }
      (.compilation (.ofInput program))
    ∃ result, (session.run .never).1 = .ok result ∧
      GeneratorKind.bindable.filesPerDeclaration session.options.layout page = 1 ∧
      ∀ hint, .ofFailure .bindable (.duplicateHint .bindable hint) ∉ result.sources := by
  intro marker page program session
  have hsteps : Steps { options := { emitMarkers := false } } _ _ session :=
    .cons (.change _ _) (.nil _)
  have hnames : program.WellNamed := by
    intro a ha b hb _
    simp only [program, List.flatMap_cons, List.flatMap_nil, List.append_nil,
      List.mem_singleton] at ha hb
    rw [ha, hb]
  obtain ⟨result, hrun⟩ := run_never (hsteps.sound (sound_new _))
  obtain ⟨-, hduplicate⟩ := duplicate_hint_iff ⟨_, _, hsteps⟩
    (show session.compilation = some (.ofInput program) from rfl) hnames hrun
    (show GeneratorKind.bindable.origin.isProgram = true from rfl)
  refine ⟨result, hrun, by decide +kernel, fun hint hm => ?_⟩
  obtain ⟨type, ht, hlt⟩ := hduplicate.mp ⟨hint, hm⟩
  have hnone : (program.declaredTypes.all fun type =>
      program.declarationsOf type *
        GeneratorKind.bindable.filesPerDeclaration session.options.layout type ≤ 1) = true := by
    decide +kernel
  have := of_decide_eq_true (List.all_eq_true.mp hnone type ht)
  omega

/-- A page that two files declare has two files with one hint. -/
theorem duplicate_hint_page :
    ¬ ∀ (options : GeneratorOptions) (session : Session) (program : CompilationInput),
      Reachable options session → session.compilation = some (.ofInput program) →
      program.WellNamed → ∀ (stop : Cancellation) (result : RunResult),
        (session.run stop).1 = .ok result → ∀ kind : GeneratorKind, kind.origin.isProgram = true →
          (hintsOf (session.input.results session.options.layout kind)).Nodup ∧
          ∀ hint, .ofFailure kind (.duplicateHint kind hint) ∉ result.sources := by
  intro h
  let marker := TypeSymbol.named .classType "Snap.Hutao.Core.Annotation"
    "BindableCustomPropertyProviderAttribute"
  let page := { TypeSymbol.named .classType "App" "Page" with attributes := [⟨marker, [], []⟩] }
  let program : CompilationInput :=
    { assemblyName := "App", declarations := [("A.cs", [page]), ("B.cs", [page])] }
  let session := Session.change { options := { emitMarkers := false } }
    (.compilation (.ofInput program))
  have hsteps : Steps { options := { emitMarkers := false } } _ _ session :=
    .cons (.change _ _) (.nil _)
  have hnames : program.WellNamed := by
    intro a ha b hb _
    simp only [program, List.flatMap_cons, List.flatMap_nil, List.append_nil, List.mem_append,
      List.mem_singleton, or_self] at ha hb
    rw [ha, hb]
  have hhints : hintsOf (session.input.results session.options.layout .bindable) =
      ["App.Page.Bindable.g.cs", "App.Page.Bindable.g.cs"] := by
    decide +kernel
  have hs : session.Sound := hsteps.sound (sound_new _)
  obtain ⟨result, hrun⟩ := run_never hs
  obtain ⟨hint, hm⟩ := (duplicate_mem_sources_iff hs hrun .bindable).mpr (by simp [hhints])
  obtain ⟨-, hnone⟩ :=
    h _ session program ⟨_, _, hsteps⟩ rfl hnames .never result hrun .bindable rfl
  exact hnone hint hm

end Session

end SourceGen
