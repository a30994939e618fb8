import SourceGen.Proofs.Session.AssemblyName
import SourceGen.Proofs.Session.Invariant

/-! A session that was used before produces what a new session produces for the same project. -/

namespace SourceGen

namespace Project

/-- The order in which the parts of a project are set does not matter. -/
theorem ofChanges_of_perm {project : Project} {setup : List Change}
    (h : setup.Perm project.changes) : ofChanges setup = project := by
  have hcomm : ∀ x ∈ setup, ∀ y ∈ setup, ∀ start : Project,
      (start.after x).after y = (start.after y).after x := by
    intro x hx y hy start
    have hx := h.mem_iff.mp hx
    have hy := h.mem_iff.mp hy
    cases x <;> cases y <;> simp_all [changes, after]
  rw [ofChanges, h.foldl_eq' hcomm]
  obtain ⟨compilation, files⟩ := project
  cases compilation <;> cases files <;> rfl

/-- The files of a project were set by one of its changes. -/
theorem files_mem {changes : List Change} {files : List AdditionalFile} {config : BuildConfig}
    (h : (ofChanges changes).files = some (files, config)) :
    Change.files files config ∈ changes := by
  induction changes using List.reverseRecOn with
  | nil => simp [ofChanges] at h
  | append_singleton changes change ih =>
    rw [ofChanges_snoc] at h
    cases change with
    | compilation compilation => exact List.mem_append_left _ (ih h)
    | files others config => simp_all [after]

theorem inputs_of_nodup {changes : List Change} (h : (ofChanges changes).paths.Nodup) :
    inputs changes = (ofChanges changes).files.map fun (files, config) =>
      config.inputs (ofChanges changes).assemblyName files := by
  cases hf : (ofChanges changes).files with
  | none => simp [inputs, hf]
  | some set =>
    obtain ⟨files, config⟩ := set
    have hn : (files.map (·.path)).Nodup := by simpa [paths, hf] using h
    simp [inputs, hf, FileInput.renameLast_inputs_of_nodup _ _ _ hn]

end Project

namespace Session

theorem change_options (session : Session) (change : Change) :
    (session.change change).options = session.options := by
  cases change with
  | compilation compilation =>
    simp only [Session.change, setCompilation]
    split <;> rfl
  | files files config => rfl

theorem run_kept (session : Session) (stop : Cancellation) :
    ∃ memos cache, (session.run stop).2 = { session with memos, cache } := by
  unfold run
  dsimp only
  split
  · split
    · exact ⟨_, _, rfl⟩
    · exact ⟨_, _, rfl⟩
  · exact ⟨_, _, rfl⟩

/-- Only changes change the project, and it is the same whatever else is asked in between. -/
theorem Steps.reflects {first last : Session} {operations : List Operation} {answers : List Answer}
    (hsteps : Steps first operations answers last) {changes : List Change}
    (h : first.Reflects changes) :
    last.options = first.options ∧
      last.Reflects (changes ++ operations.filterMap Operation.change?) := by
  induction hsteps generalizing changes with
  | nil => exact ⟨rfl, by simpa using h⟩
  | cons step _ ih =>
    cases step with
    | change change =>
      obtain ⟨ho, hr⟩ := ih (reflects_change h change)
      exact ⟨ho.trans (change_options _ change), by simpa [Operation.change?] using hr⟩
    | @run timing stop admits =>
      obtain ⟨memos, cache, hkept⟩ := run_kept _ stop
      rw [hkept] at ih
      exact ih ⟨h.compilation, h.assemblyName, h.named, h.inputs⟩
    | analyze admits => exact ih h

theorem configure_options (session : Session) (changes : List Change) :
    (session.configure changes).options = session.options := by
  induction changes generalizing session with
  | nil => rfl
  | cons change rest ih => exact (ih _).trans (change_options session change)

/-- The input of a session that reflects a project whose paths are different ones. -/
theorem Reflects.input {session : Session} {changes : List Change}
    (h : session.Reflects changes) (hn : (Project.ofChanges changes).paths.Nodup) :
    session.input =
      { markers := session.options.emitMarkers
        compilation := (Project.ofChanges changes).compilation
        files := (Project.ofChanges changes).files.map fun (files, config) =>
          config.inputs (Project.ofChanges changes).assemblyName files } := by
  rw [Session.input, h.compilation, h.inUse, Project.inputs_of_nodup hn]

/-- A run gives the sources and findings that the first run of a new session gives for the program
and the files that were set last, whatever was asked before and however earlier runs ended, as long
as no files with the same path were set together. -/
theorem run_eq_fresh {options : GeneratorOptions} {history : List Operation}
    {answers : List Answer} {session : Session}
    (hsteps : Steps { options } history answers session)
    (hpaths : ∀ files config, Operation.change (.files files config) ∈ history →
      (files.map (·.path)).Nodup)
    {stop : Cancellation} {result : RunResult} (hrun : (session.run stop).1 = .ok result)
    {setup : List Change}
    (hsetup : setup.Perm (Project.ofChanges (history.filterMap Operation.change?)).changes) :
    ∃ fresh, ((configure { options } setup).run .never).1 = .ok fresh ∧
      fresh.sources = result.sources ∧ fresh.diagnostics = result.diagnostics := by
  let changes := history.filterMap Operation.change?
  let new := configure { options } setup
  have hs : session.Sound := hsteps.sound (sound_new options)
  have hnew : new.Sound := configure_sound (sound_new options) setup
  have hproject : Project.ofChanges setup = Project.ofChanges changes :=
    Project.ofChanges_of_perm hsetup
  have hnodup : (Project.ofChanges changes).paths.Nodup := by
    cases hf : (Project.ofChanges changes).files with
    | none => simp [Project.paths, hf]
    | some set =>
      obtain ⟨operation, hm, ho⟩ := List.mem_filterMap.mp (Project.files_mem hf)
      cases operation with
      | change change =>
        obtain rfl := Option.some.inj ho
        simpa [Project.paths, hf] using hpaths _ _ hm
      | run timing => simp [Operation.change?] at ho
      | analyze timing => simp [Operation.change?] at ho
  obtain ⟨hoptions, hreflects⟩ := hsteps.reflects (reflects_configure options [])
  rw [List.nil_append] at hreflects
  have hoptions' : new.options = options := configure_options { options } setup
  have hinput : new.input = session.input := by
    rw [(reflects_configure options setup).input (hproject ▸ hnodup), hreflects.input hnodup,
      hproject, hoptions, hoptions']
  obtain ⟨fresh, hfresh⟩ := run_never hnew
  obtain ⟨hsources, hdiagnostics⟩ := run_result hs hrun
  obtain ⟨hsources', hdiagnostics'⟩ := run_result hnew hfresh
  refine ⟨fresh, hfresh, ?_, ?_⟩
  · rw [hsources', hsources, hinput, hoptions, hoptions']
  · rw [hdiagnostics', hdiagnostics, hinput]

/-- The last run of a session that was told to stop while it worked on files, and then got a
program. -/
theorem run_eq_fresh_resumed :
    let files : Change := .files [⟨"Strings.resx", "<root/>"⟩, ⟨"Names.resx", "<root/>"⟩] {}
    let program : Change := .compilation { assemblyName := "App" }
    let session := (((Session.change { options := {} } files).run (.after 3)).2).change program
    ∃ result fresh, (session.run .never).1 = .ok result ∧
      ((configure { options := {} } [program, files]).run .never).1 = .ok fresh ∧
      fresh.sources = result.sources ∧ fresh.diagnostics = result.diagnostics := by
  intro files program session
  have hsteps : Steps { options := {} } [.change files, .run .anyTime, .change program] _ session :=
    .cons (.change _ _) (.cons (.run _ trivial) (.cons (.change _ _) (.nil _)))
  obtain ⟨result, hresult⟩ := run_never (hsteps.sound (sound_new {}))
  obtain ⟨fresh, hfresh, hsame⟩ :=
    run_eq_fresh hsteps (by simp [files, program]) hresult (.refl [program, files])
  exact ⟨result, fresh, hresult, hfresh, hsame⟩

end Session

end SourceGen
