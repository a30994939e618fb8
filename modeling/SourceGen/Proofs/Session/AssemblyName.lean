import SourceGen.Proofs.Session.FileStore
import SourceGen.Session.History
import Mathlib.Data.List.Induction

/-! The assembly names that files have. Inputs are renamed as the inputs of their paths, so that a
name that comes after the files does not reach those of several inputs with one path that others
follow. -/

namespace SourceGen

namespace Change

/-- Whether the change sets files. -/
def isFiles : Change → Bool
  | files _ _ => true
  | compilation _ => false

/-- The changes in front of the one that sets files last. -/
def beforeFiles (changes : List Change) : List Change :=
  (changes.reverse.dropWhile fun change => !change.isFiles).tail.reverse

private theorem beforeFiles_compilation (changes : List Change) (compilation : Compilation) :
    beforeFiles (changes ++ [.compilation compilation]) = beforeFiles changes := by
  simp [beforeFiles, isFiles]

private theorem beforeFiles_files (changes : List Change) (files : List AdditionalFile)
    (config : BuildConfig) : beforeFiles (changes ++ [.files files config]) = changes := by
  simp [beforeFiles, isFiles]

end Change

namespace Project

theorem ofChanges_snoc (changes : List Change) (change : Change) :
    ofChanges (changes ++ [change]) = (ofChanges changes).after change := by
  simp [ofChanges]

/-- The inputs that hold the files of a project whose changes came one after the other: with the
name of the assembly, apart from files that others of the same path follow, which have the name that
the assembly had when they were set. -/
def inputs (changes : List Change) : Option (List FileInput) :=
  (ofChanges changes).files.map fun (files, config) =>
    FileInput.renameLast (ofChanges changes).assemblyName
      (config.inputs (ofChanges (Change.beforeFiles changes)).assemblyName files)

end Project

namespace Session

private theorem configure_snoc (session : Session) (changes : List Change) (change : Change) :
    session.configure (changes ++ [change]) = (session.configure changes).change change := by
  simp [configure]

/-- After changes, a session has the program of the project and its files in the inputs that they
are to be in. -/
structure Reflects (session : Session) (changes : List Change) : Prop where
  compilation : session.compilation = (Project.ofChanges changes).compilation
  assemblyName : session.assemblyName = (Project.ofChanges changes).assemblyName
  named : session.store.Named session.assemblyName
  inputs : session.store.listed = none ∧ Project.inputs changes = none ∨
    ∃ held, session.store.Holds held ∧ Project.inputs changes = some (held.map (·.1))

theorem reflects_setCompilation {session : Session} {changes : List Change}
    (h : session.Reflects changes) (compilation : Compilation) :
    (session.setCompilation compilation).Reflects (changes ++ [.compilation compilation]) := by
  have hp : Project.ofChanges (changes ++ [.compilation compilation]) =
      { Project.ofChanges changes with compilation := some compilation } :=
    Project.ofChanges_snoc _ _
  have hi : Project.inputs (changes ++ [.compilation compilation]) =
      (Project.inputs changes).map (FileInput.renameLast (some compilation.assemblyName)) := by
    simp [Project.inputs, hp, Change.beforeFiles_compilation, Project.assemblyName,
      Function.comp_def, FileInput.renameLast_renameLast]
  by_cases hn : session.assemblyName = some compilation.assemblyName
  · have hsame : (Project.inputs changes).map
        (FileInput.renameLast (some compilation.assemblyName)) = Project.inputs changes := by
      simp [Project.inputs, ← h.assemblyName, hn, Function.comp_def,
        FileInput.renameLast_renameLast]
    simp only [setCompilation, if_pos hn]
    exact ⟨by rw [hp], by rw [hp]; exact hn, h.named, by rw [hi, hsame]; exact h.inputs⟩
  · simp only [setCompilation, if_neg hn]
    refine ⟨by rw [hp], by rw [hp]; rfl, FileStore.rename_named h.named _, ?_⟩
    rcases h.inputs with ⟨hl, hnone⟩ | ⟨held, hh, hsome⟩
    · exact .inl ⟨hl, by rw [hi, hnone]; rfl⟩
    · obtain ⟨later, hlater, hholds⟩ := FileStore.rename_holds hh compilation.assemblyName
      exact .inr ⟨later, hholds, by rw [hi, hsome, hlater]; rfl⟩

theorem reflects_setFiles {session : Session} {changes : List Change}
    (h : session.Reflects changes) (files : List AdditionalFile) (config : BuildConfig) :
    (session.setFiles files config).Reflects (changes ++ [.files files config]) := by
  have hp : Project.ofChanges (changes ++ [.files files config]) =
      { Project.ofChanges changes with files := some (files, config) } :=
    Project.ofChanges_snoc _ _
  have hi : Project.inputs (changes ++ [.files files config]) =
      some (config.inputs (Project.ofChanges changes).assemblyName files) := by
    simp [Project.inputs, hp, Change.beforeFiles_files, Project.assemblyName,
      FileInput.renameLast_inputs_self]
  obtain ⟨held, hf, hh⟩ := FileStore.replace_holds h.named config files
  refine ⟨?_, ?_, FileStore.replace_named h.named config files, .inr ⟨held, hh, ?_⟩⟩
  · rw [hp]
    exact h.compilation
  · rw [hp]
    exact h.assemblyName
  · rw [hi, hf, h.assemblyName]

theorem reflects_change {session : Session} {changes : List Change} (h : session.Reflects changes)
    (change : Change) : (session.change change).Reflects (changes ++ [change]) := by
  cases change with
  | compilation compilation => exact reflects_setCompilation h compilation
  | files files config => exact reflects_setFiles h files config

theorem reflects_configure (options : GeneratorOptions) (changes : List Change) :
    (configure { options } changes).Reflects changes := by
  induction changes using List.reverseRecOn with
  | nil => exact ⟨rfl, rfl, ⟨by simp [configure], by simp [configure]⟩, .inl ⟨rfl, rfl⟩⟩
  | append_singleton changes change ih =>
    rw [configure_snoc]
    exact reflects_change ih change

theorem Reflects.inUse {session : Session} {changes : List Change} (h : session.Reflects changes) :
    session.store.inUse = Project.inputs changes := by
  rcases h.inputs with ⟨hl, hnone⟩ | ⟨held, hh, hsome⟩
  · rw [hnone, FileStore.inUse, hl]
    rfl
  · rw [hsome, FileStore.inUse_of_holds hh]

end Session

/-- The paths of the files of a project. -/
def Project.paths (project : Project) : List String :=
  (project.files.elim [] (·.1)).map (·.path)

private theorem renameLast_named_iff (config : BuildConfig) (name older : Option String)
    (files : List AdditionalFile) :
    (∀ input ∈ FileInput.renameLast name (config.inputs older files),
        input.assemblyName = name) ↔
      (files.map (·.path)).Nodup ∨ older = name := by
  induction files with
  | nil => simp [BuildConfig.inputs, FileInput.renameLast]
  | cons file rest ih =>
    have hc : config.inputs older (file :: rest) =
        ⟨file, config.forFile file.path, older⟩ :: config.inputs older rest := rfl
    rw [hc, FileInput.renameLast, List.forall_mem_cons, ih, FileInput.inputs_paths, List.map_cons,
      List.nodup_cons]
    by_cases hm : file.path ∈ rest.map (·.path)
    · rw [if_pos hm]
      tauto
    · rw [if_neg hm]
      tauto

/-- All files have the name of the assembly exactly if no path occurs twice or the files were set
when the assembly had its name already. -/
theorem Session.assemblyName_current_iff (options : GeneratorOptions) (changes : List Change) :
    (∀ input ∈ (Session.configure { options } changes).store.inUse.getD [],
        input.assemblyName = (Project.ofChanges changes).assemblyName) ↔
      (Project.ofChanges changes).paths.Nodup ∨
        (Project.ofChanges (Change.beforeFiles changes)).assemblyName =
          (Project.ofChanges changes).assemblyName := by
  rw [(reflects_configure options changes).inUse]
  cases hf : (Project.ofChanges changes).files with
  | none => simp [Project.inputs, hf, Project.paths]
  | some set =>
    simp only [Project.inputs, hf, Option.map_some, Option.getD_some, Project.paths]
    exact renameLast_named_iff _ _ _ _

/-- A name that comes after two files with one path does not reach the first of them. -/
theorem Session.assemblyName_stale :
    ¬ ∀ (options : GeneratorOptions) (changes : List Change),
      ∀ input ∈ (Session.configure { options } changes).store.inUse.getD [],
        input.assemblyName = (Project.ofChanges changes).assemblyName := by
  intro h
  let file : AdditionalFile := ⟨"App/Strings.resx", "<root/>"⟩
  have := h {} [.files [file, file] {}, .compilation { assemblyName := "App" }]
    ⟨file, [], none⟩ (by decide)
  exact absurd this (by decide)

end SourceGen
