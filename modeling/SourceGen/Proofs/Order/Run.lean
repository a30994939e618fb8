import SourceGen.Proofs.Order.Program
import SourceGen.Proofs.Order.Sources
import SourceGen.Proofs.Session.Incremental

/-! Generation does not depend on the order in which the files of a program, their types and the
additional files are listed. -/

namespace SourceGen

/-- What a session is given before it runs: options, what its program is built from, and the
additional files with the build metadata. -/
structure Setup where
  options : GeneratorOptions
  program : Option CompilationInput
  files : Option (List AdditionalFile × BuildConfig)

namespace Setup

/-- The project that the session works on. -/
def project (setup : Setup) : Project :=
  ⟨setup.program.map .ofInput, setup.files⟩

/-- A new session with all that it is given. -/
def session (setup : Setup) : Session :=
  Session.configure { options := setup.options } setup.project.changes

/-- Whether the same is given as elsewhere, with files and their types listed in another order. -/
structure Reordered (setup other : Setup) : Prop where
  options : other.options = setup.options
  program : Option.Rel CompilationInput.Reordered setup.program other.program
  files : Option.Rel (fun set changed => set.1.Perm changed.1 ∧ changed.2 = set.2) setup.files
    other.files

/-- Whether full names tell declared types apart, and paths the additional files. -/
structure Unambiguous (setup : Setup) : Prop where
  program : ∀ program ∈ setup.program, program.Unambiguous
  files : ∀ set ∈ setup.files, (set.1.map (·.path)).Nodup

/-- The input of the session, as long as paths tell the files apart. -/
theorem session_input {setup : Setup} (hu : setup.Unambiguous) :
    setup.session.input =
      { markers := setup.options.emitMarkers
        compilation := setup.program.map .ofInput
        files := setup.files.map fun (files, config) =>
          config.inputs (setup.program.map (·.assemblyName)) files } := by
  have hproject : Project.ofChanges setup.project.changes = setup.project :=
    Project.ofChanges_of_perm (.refl _)
  have hnodup : (Project.ofChanges setup.project.changes).paths.Nodup := by
    rw [hproject, Project.paths]
    cases hf : setup.files with
    | none => simp [project, hf]
    | some set => simpa [project, hf] using hu.files set hf
  have hname : setup.project.assemblyName = setup.program.map (·.assemblyName) := by
    cases hp : setup.program with
    | none => simp [Project.assemblyName, project, hp]
    | some program =>
      simp [Project.assemblyName, project, hp, Compilation.ofInput_assemblyName]
  rw [session, (Session.reflects_configure setup.options _).input hnodup, hproject, hname,
    Session.configure_options]
  rfl

private theorem program_same {Context : Type} (stage : CompilationStage Context)
    {input other : RunInput}
    (h : Option.Rel (fun program changed => (stage.contexts program).Perm (stage.contexts changed))
      input.compilation other.compilation) :
    ((Origin.program stage).gather input).Same ((Origin.program stage).gather other) := by
  obtain ⟨markers, program, files⟩ := input
  obtain ⟨markers', program', files'⟩ := other
  cases h with
  | some h => exact ⟨h, .refl _⟩
  | none => exact ⟨.refl _, .refl _⟩

private theorem files_same {Context : Type} (stage : FileStage Context) {input other : RunInput}
    (h : Option.Rel (fun files changed => (stage.gather files).Same (stage.gather changed))
      input.files other.files) :
    ((Origin.files stage).gather input).Same ((Origin.files stage).gather other) := by
  obtain ⟨markers, program, files⟩ := input
  obtain ⟨markers', program', files'⟩ := other
  cases h with
  | some h => exact h
  | none => exact ⟨.refl _, .refl _⟩

private theorem rel_map {α β : Type} {r : α → α → Prop} {s : β → β → Prop} {f g : α → β}
    {value other : Option α} (hr : Option.Rel r value other)
    (h : ∀ a ∈ value, ∀ b, r a b → s (f a) (g b)) : Option.Rel s (value.map f) (other.map g) := by
  cases hr with
  | some hr => exact .some (h _ rfl _ hr)
  | none => exact .none

theorem Reordered.unambiguous {setup other : Setup} (h : setup.Reordered other)
    (hu : setup.Unambiguous) : other.Unambiguous := by
  obtain ⟨options, program, files⟩ := setup
  obtain ⟨options', program', files'⟩ := other
  obtain ⟨-, hprogram, hfiles⟩ := h
  refine ⟨?_, ?_⟩
  · cases hprogram with
    | some hp =>
      intro program hm
      obtain rfl := Option.some.inj hm
      exact hp.unambiguous (hu.program _ rfl)
    | none => simp
  · cases hfiles with
    | some hf =>
      intro set hm
      obtain rfl := Option.some.inj hm
      exact (hf.1.map _).nodup_iff.mp (hu.files _ rfl)
    | none => simp

theorem Reordered.assemblyName {setup other : Setup} (h : setup.Reordered other) :
    other.program.map (·.assemblyName) = setup.program.map (·.assemblyName) := by
  obtain ⟨options, program, files⟩ := setup
  obtain ⟨options', program', files'⟩ := other
  obtain ⟨-, hprogram, -⟩ := h
  cases hprogram with
  | some hp => exact congrArg some hp.assemblyName
  | none => rfl

/-- Generators collect the same, in any order. -/
theorem Reordered.collectsSame {setup other : Setup} (h : setup.Reordered other)
    (hu : setup.Unambiguous) : setup.session.input.CollectsSame other.session.input := by
  rw [session_input hu, session_input (h.unambiguous hu), h.options]
  have hprogram {Context : Type} (stage : CompilationStage Context)
      (hp : ∀ {input other : CompilationInput}, input.Reordered other → input.Unambiguous →
        (stage.contexts (.ofInput input)).Perm (stage.contexts (.ofInput other))) :
      Option.Rel
        (fun program changed => (stage.contexts program).Perm (stage.contexts changed))
        (setup.program.map .ofInput) (other.program.map .ofInput) :=
    rel_map h.program fun program hm changed hr => hp hr (hu.program program hm)
  have hfiles {Context : Type} (stage : FileStage Context)
      (hs : ∀ {files changed : List FileInput}, files.Perm changed →
        (files.map (·.file.path)).Nodup → (stage.gather files).Same (stage.gather changed)) :
      Option.Rel (fun files changed => (stage.gather files).Same (stage.gather changed))
        (setup.files.map fun (files, config) =>
          config.inputs (setup.program.map (·.assemblyName)) files)
        (other.files.map fun (files, config) =>
          config.inputs (other.program.map (·.assemblyName)) files) := by
    refine rel_map h.files fun set hm changed hr => ?_
    obtain ⟨files, config⟩ := set
    obtain ⟨moved, config'⟩ := changed
    obtain ⟨hp, rfl⟩ := hr
    rw [h.assemblyName]
    refine hs (hp.map _) ?_
    rw [FileInput.inputs_paths]
    exact hu.files _ hm
  intro kind
  cases kind with
  | attributes => exact ⟨.refl _, .refl _⟩
  | constructor => exact program_same _ (hprogram _ fun hr _ => constructorStage_perm hr)
  | service => exact program_same _ (hprogram _ fun hr hu => .of_eq (serviceStage_eq hr hu))
  | httpClient => exact program_same _ (hprogram _ fun hr hu => .of_eq (httpClientStage_eq hr hu))
  | dependencyProperty =>
    exact program_same _ (hprogram _ fun hr _ => dependencyPropertyStage_perm hr)
  | command => exact program_same _ (hprogram _ commandStage_perm)
  | bindable => exact program_same _ (hprogram _ fun hr _ => bindableStage_perm hr)
  | fieldAccessor => exact program_same _ (hprogram _ fieldAccessorStage_perm)
  | extendedEnum => exact program_same _ (hprogram _ fun hr _ => extendedEnumStage_perm hr)
  | unloadOverride => exact program_same _ (hprogram _ fun hr _ => unloadOverrideStage_perm hr)
  | propertyValues => exact program_same _ (hprogram _ fun hr _ => propertyValuesStage_perm hr)
  | resource => exact files_same _ (hfiles _ resourceStage_same)
  | endpoints => exact files_same _ (hfiles _ fun hp _ => endpointsStage_same hp)
  | identity => exact files_same _ (hfiles _ fun hp _ => identityStage_same hp)

end Setup

/-- Whether no source of a run reports a failure. -/
def RunResult.IsClean (result : RunResult) : Prop :=
  ∀ source ∈ result.sources, source.hint?.isSome

/-- If the files of a program, the types that each of them lists and the additional files are
reordered, a run returns the same sources in the same order and the same findings in some order,
unless it reports failures either way. -/
theorem Setup.run_reordered {setup other : Setup} (h : setup.Reordered other)
    (hu : setup.Unambiguous) :
    ∃ result changed, (setup.session.run .never).1 = .ok result ∧
      (other.session.run .never).1 = .ok changed ∧
      (result.IsClean ∨ changed.IsClean →
        result.IsClean ∧ changed.IsClean ∧ changed.sources = result.sources ∧
          changed.diagnostics.Perm result.diagnostics) := by
  have hs (setup : Setup) : setup.session.Sound :=
    Session.configure_sound (Session.sound_new _) _
  have hlayout : other.session.options.layout = setup.session.options.layout := by
    rw [session, session, Session.configure_options, Session.configure_options, h.options]
  have hsame := h.collectsSame hu
  obtain ⟨result, hrun⟩ := Session.run_never (hs setup)
  obtain ⟨changed, hrun'⟩ := Session.run_never (hs other)
  obtain ⟨hsources, hdiagnostics⟩ := Session.run_result (hs setup) hrun
  obtain ⟨hsources', hdiagnostics'⟩ := Session.run_result (hs other) hrun'
  refine ⟨result, changed, hrun, hrun', fun hclean => ?_⟩
  have heq : changed.sources = result.sources := by
    rw [hsources, hsources', hlayout]
    rcases hclean with hc | hc
    · exact hsame.sources fun source hm => hc source (hsources ▸ hm)
    · exact (hsame.symm.sources fun source hm => hc source (hsources' ▸ hlayout ▸ hm)).symm
  have hboth : result.IsClean ∧ changed.IsClean := by
    rcases hclean with hc | hc
    · exact ⟨hc, fun source hm => hc source (heq ▸ hm)⟩
    · exact ⟨fun source hm => hc source (heq ▸ hm), hc⟩
  refine ⟨hboth.1, hboth.2, heq, ?_⟩
  rw [hdiagnostics, hdiagnostics']
  exact hsame.diagnostics.symm

/-- Two files that change places, in one of them two classes, and two tables of resources. -/
theorem Setup.run_reordered_classes :
    let alpha := TypeSymbol.named .classType "App" "Alpha"
    let beta := TypeSymbol.named .classType "App" "Beta"
    let gamma := TypeSymbol.named .classType "App" "Gamma"
    let strings : AdditionalFile := ⟨"Strings.resx", "<root/>"⟩
    let names : AdditionalFile := ⟨"Names.resx", "<root/>"⟩
    let setup : Setup :=
      { options := { emitMarkers := false }
        program := some
          { assemblyName := "App"
            declarations := [("A.cs", [alpha, beta]), ("B.cs", [gamma])] }
        files := some ([strings, names], {}) }
    let other : Setup :=
      { setup with
        program := some
          { assemblyName := "App"
            declarations := [("B.cs", [gamma]), ("A.cs", [beta, alpha])] }
        files := some ([names, strings], {}) }
    setup.Reordered other ∧ setup.Unambiguous ∧
    ∃ result changed, (setup.session.run .never).1 = .ok result ∧
      (other.session.run .never).1 = .ok changed ∧ result.IsClean ∧
      changed.sources = result.sources ∧ changed.diagnostics.Perm result.diagnostics := by
  intro alpha beta gamma strings names setup other
  have h : setup.Reordered other := by
    refine ⟨rfl, .some ⟨rfl, ⟨[("B.cs", [gamma]), ("A.cs", [alpha, beta])], .swap .., ?_⟩, .refl _,
      rfl, rfl⟩, .some ⟨.swap .., rfl⟩⟩
    exact .cons ⟨rfl, .refl _⟩ (.cons ⟨rfl, .swap ..⟩ .nil)
  have hu : setup.Unambiguous := by
    refine ⟨fun program hp => ?_, fun set hs => ?_⟩
    · obtain rfl := Option.some.inj hp
      unfold CompilationInput.Unambiguous
      decide
    · obtain rfl := Option.some.inj hs
      decide
  have hclean : (GeneratorKind.all.all fun kind =>
      (StageRun.undisturbed setup.session.input [] setup.session.options.layout kind).sources.all
        (·.hint?.isSome)) = true := by
    decide +kernel
  obtain ⟨result, changed, hrun, hrun', hsame⟩ := run_reordered h hu
  have hresult : result.IsClean := by
    have hs : setup.session.Sound := Session.configure_sound (Session.sound_new _) _
    intro source hm
    rw [(Session.run_result hs hrun).1, RunInput.sources, List.mem_mergeSort,
      List.flatMap_map] at hm
    obtain ⟨kind, hk, hm⟩ := List.mem_flatMap.mp hm
    exact List.all_eq_true.mp (List.all_eq_true.mp hclean kind hk) source hm
  obtain ⟨-, -, hsources, hdiagnostics⟩ := hsame (.inl hresult)
  exact ⟨h, hu, result, changed, hrun, hrun', hresult, hsources, hdiagnostics⟩

end SourceGen
