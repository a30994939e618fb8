import SourceGen.Proofs.Session.Run
import SourceGen.Session.History

/-! Whatever is asked of a session, what it keeps for later runs stays sound. -/

namespace SourceGen

theorem GeneratorKind.all_nodup : GeneratorKind.all.Nodup := by
  decide

theorem GeneratorKind.mem_all (kind : GeneratorKind) : kind ∈ GeneratorKind.all := by
  cases kind <;> decide

namespace Memos

/-- What is kept stays sound as long as the part of the input changes that nothing is kept of. -/
theorem sound_of_change {memos later : Memos} {input changed : RunInput} (hs : memos.Sound input)
    (h : ∀ kind, later kind = none ∨ (later kind = memos kind ∧ ∀ files,
      kind.origin.gather (changed.withFiles files) = kind.origin.gather (input.withFiles files))) :
    later.Sound changed := by
  intro kind memo hm
  rcases h kind with hn | ⟨he, hg⟩
  · simp [hn] at hm
  · rw [hg]
    exact hs kind memo (he ▸ hm)

/-- A generator does not look more than if nothing were kept. -/
theorem looks_le {memos : Memos} {input : RunInput} {kind : GeneratorKind}
    (h : memos.looks input kind = true) : kind.origin.looks input = true :=
  (Bool.and_eq_true_iff.mp h).2

theorem looks_of_none {memos : Memos} {kind : GeneratorKind} (h : memos kind = none)
    (input : RunInput) : memos.looks input kind = kind.origin.looks input := by
  simp [looks, valid?, h]

end Memos

namespace Session

/-- Whether what a session keeps for later runs is sound. -/
structure Sound (session : Session) : Prop where
  memos : session.memos.Sound session.input
  cache : session.cache.Sound session.options.layout

/-- Whether some generator will notice in a run that the run was told to stop before it started. -/
def Notices (session : Session) : Prop :=
  ∃ kind, session.memos.notices session.input kind = true

/-- What the generators do in a run that is not told to stop. -/
def stages (session : Session) : List StageRun :=
  GeneratorKind.all.map
    (StageRun.undisturbed session.input session.cache session.options.layout)

theorem sound_new (options : GeneratorOptions) : Session.Sound { options } :=
  ⟨Memos.sound_empty _, EmissionCache.sound_nil _⟩

private theorem inUse_rename (store : FileStore) (name : String) (files : List FileInput) :
    ((store.rename name).inUse.map fun _ => files) = store.inUse.map fun _ => files := by
  simp [FileStore.inUse, FileStore.rename, Function.comp_def]

private theorem forgetProgram_sound {memos : Memos} {input changed : RunInput}
    (hs : memos.Sound input) (hmarkers : changed.markers = input.markers)
    (hfiles : ∀ files, (changed.withFiles files).files = (input.withFiles files).files) :
    memos.forgetProgram.Sound changed := by
  refine Memos.sound_of_change hs fun kind => ?_
  cases ho : kind.origin with
  | options collect =>
    refine .inr ⟨by simp [Memos.forgetProgram, ho, Origin.isProgram], fun files => ?_⟩
    simp [Origin.gather, RunInput.withFiles, hmarkers]
  | program stage => exact .inl (by simp [Memos.forgetProgram, ho, Origin.isProgram])
  | files stage =>
    refine .inr ⟨by simp [Memos.forgetProgram, ho, Origin.isProgram], fun files => ?_⟩
    simp [Origin.gather, hfiles]

private theorem forgetFiles_sound {memos : Memos} {input changed : RunInput}
    (hs : memos.Sound input) (hmarkers : changed.markers = input.markers)
    (hcompilation : changed.compilation = input.compilation) :
    memos.forgetFiles.Sound changed := by
  refine Memos.sound_of_change hs fun kind => ?_
  cases ho : kind.origin with
  | options collect =>
    refine .inr ⟨by simp [Memos.forgetFiles, ho, Origin.isFiles], fun files => ?_⟩
    simp [Origin.gather, RunInput.withFiles, hmarkers]
  | program stage =>
    refine .inr ⟨by simp [Memos.forgetFiles, ho, Origin.isFiles], fun files => ?_⟩
    simp [Origin.gather, RunInput.withFiles, hcompilation]
  | files stage => exact .inl (by simp [Memos.forgetFiles, ho, Origin.isFiles])

theorem setCompilation_sound {session : Session} (hs : session.Sound) (compilation : Compilation) :
    (session.setCompilation compilation).Sound := by
  by_cases h : session.assemblyName = some compilation.assemblyName
  · simp only [setCompilation, if_pos h]
    exact ⟨forgetProgram_sound hs.memos rfl fun _ => rfl, hs.cache⟩
  · simp only [setCompilation, if_neg h]
    exact ⟨forgetProgram_sound hs.memos rfl (inUse_rename session.store _), hs.cache⟩

theorem setFiles_sound {session : Session} (hs : session.Sound) (files : List AdditionalFile)
    (config : BuildConfig) : (session.setFiles files config).Sound :=
  ⟨forgetFiles_sound hs.memos rfl rfl, hs.cache⟩

theorem change_sound {session : Session} (hs : session.Sound) (change : Change) :
    (session.change change).Sound := by
  cases change with
  | compilation compilation => exact setCompilation_sound hs compilation
  | files files config => exact setFiles_sound hs files config

/-- After setting all parts to what they are, nothing is kept of a generator that looks. -/
theorem invalidate_of_looks (session : Session) {kind : GeneratorKind}
    (h : kind.origin.looks session.input = true) : session.invalidate.memos kind = none := by
  cases ho : kind.origin with
  | options collect => simp [ho, Origin.looks] at h
  | program stage =>
    have hc : session.compilation.isSome = true := by
      cases hc : session.compilation with
      | none => simp [ho, Origin.looks, input, hc] at h
      | some compilation => rfl
    by_cases hl : session.store.listed.isSome = true <;>
      simp [invalidate, hc, hl, Memos.forgetProgram, Memos.forgetFiles, ho, Origin.isProgram]
  | files stage =>
    have hl : session.store.listed.isSome = true := by
      cases hl : session.store.listed with
      | none => simp [ho, Origin.looks, input, FileStore.inUse, hl] at h
      | some numbers => rfl
    simp [invalidate, hl, Memos.forgetFiles, ho, Origin.isFiles]

private theorem invalidate_memos (session : Session) (kind : GeneratorKind) :
    session.invalidate.memos kind = none ∨
      session.invalidate.memos kind = session.memos kind := by
  unfold invalidate
  by_cases hc : session.compilation.isSome = true <;>
    by_cases hl : session.store.listed.isSome = true <;>
    cases hp : kind.origin.isProgram <;> cases hf : kind.origin.isFiles <;>
    simp [hc, hl, Memos.forgetProgram, Memos.forgetFiles, hp, hf]

/-- Setting all parts to what they are drops everything that need not be sound. -/
theorem invalidate_sound {session : Session} (hc : session.cache.Sound session.options.layout)
    (hs : ∀ kind, kind.origin.looks session.input = false →
      session.memos.SoundAt session.input kind) : session.invalidate.Sound := by
  refine ⟨fun kind memo hm => ?_, hc⟩
  cases hl : kind.origin.looks session.input with
  | true => simp [invalidate_of_looks session hl] at hm
  | false =>
    rcases invalidate_memos session kind with hn | he
    · simp [hn] at hm
    · exact hs kind hl memo (he ▸ hm)

/-- A run does what it does undisturbed, or fails because some generator noticed that it was told to
stop. -/
theorem run_cases {session : Session} (hs : session.Sound) (stop : Cancellation) :
    (∃ memos, session.run stop =
        (.ok (.ofStages session.stages),
          { session with memos, cache := .ofStages session.stages }) ∧
      memos.Sound session.input ∧ ∀ kind, memos.looks session.input kind = false) ∨
    (∃ memos : Memos, session.run stop = (.error .cancelled, { session with memos }.invalidate) ∧
      stop ≠ .never ∧ session.Notices ∧ { session with memos }.invalidate.Sound) := by
  let state : RunState := ⟨stop, session.memos⟩
  have hcases := StageRun.ofKinds_cases session.cache session.options.layout
    GeneratorKind.all_nodup (show state.memos.Sound session.input from hs.memos)
  unfold run
  rcases hcases with ⟨hf, hsound, hlooks⟩ | ⟨hf, hstop, ⟨kind, -, hnotices⟩, hkept⟩
  · refine .inl ⟨_, ?_, hsound, fun kind => hlooks kind kind.mem_all⟩
    simp only [state] at hf
    simp only [hf]
    rfl
  · let memos :=
      (StageRun.ofKinds session.input session.cache session.options.layout state
        GeneratorKind.all).2.memos
    have hinvalid : { session with memos }.invalidate.Sound := invalidate_sound hs.cache hkept
    refine .inr ⟨memos, ?_, hstop, ⟨kind, hnotices⟩, hinvalid⟩
    simp only [state] at hf
    simp only [hf, if_true]
    rfl

/-- A run that is told to stop before it starts fails if some generator notices. -/
theorem run_before {session : Session} (hs : session.Sound) (hnotices : session.Notices) :
    (session.run (.after 0)).1 = .error .cancelled := by
  obtain ⟨kind, hk⟩ := hnotices
  let state : RunState := ⟨.after 0, session.memos⟩
  have hf := StageRun.ofKinds_before session.cache session.options.layout
    GeneratorKind.all_nodup (show state.memos.Sound session.input from hs.memos) rfl
    ⟨kind, kind.mem_all, hk⟩
  simp only [state] at hf
  simp only [run, hf]

theorem run_sound {session : Session} (hs : session.Sound) (stop : Cancellation) :
    (session.run stop).2.Sound := by
  rcases run_cases hs stop with ⟨memos, hr, hm, -⟩ | ⟨memos, hr, -, -, hinvalid⟩
  · rw [hr]
    exact ⟨hm, EmissionCache.sound_ofStages hs.cache session.input _⟩
  · rw [hr]
    exact hinvalid

end Session

namespace RunInput

/-- The sources that a run adds that is not told to stop. -/
def sources (input : RunInput) (layout : Layout) : List GeneratedSource :=
  ((GeneratorKind.all.map (StageRun.undisturbed input [] layout)).flatMap
    StageRun.sources).mergeSort GeneratedSource.precedes

/-- What such a run finds. -/
def diagnostics (input : RunInput) : List Diagnostic :=
  GeneratorKind.all.flatMap fun kind => (kind.origin.gather input).diagnostics

end RunInput

namespace Session

/-- The input and the layout alone decide what a run produces. -/
theorem run_result {session : Session} (hs : session.Sound) {stop : Cancellation}
    {result : RunResult} (h : (session.run stop).1 = .ok result) :
    result.sources = session.input.sources session.options.layout ∧
      result.diagnostics = session.input.diagnostics := by
  rcases run_cases hs stop with ⟨memos, hr, -⟩ | ⟨memos, hr, -⟩
  · obtain rfl : RunResult.ofStages session.stages = result := by
      simpa [hr] using h
    have hsources := funext (StageRun.sources_undisturbed hs.cache session.input)
    refine ⟨?_, ?_⟩
    · simp only [RunResult.ofStages, stages, RunInput.sources, List.flatMap_map, hsources]
    · simp only [RunResult.ofStages, stages, RunInput.diagnostics, List.flatMap_map]
      rfl
  · simp [hr] at h

/-- A run that is not told to stop gives a result. -/
theorem run_never {session : Session} (hs : session.Sound) :
    ∃ result, (session.run .never).1 = .ok result := by
  rcases run_cases hs .never with ⟨memos, hr, -⟩ | ⟨memos, -, hstop, -⟩
  · exact ⟨_, by rw [hr]⟩
  · exact absurd rfl hstop

/-- What a session keeps for later runs is sound after anything that was asked of it. -/
theorem Steps.sound {first last : Session} {operations : List Operation} {answers : List Answer}
    (hsteps : Steps first operations answers last) (hs : first.Sound) : last.Sound := by
  induction hsteps with
  | nil => exact hs
  | cons step _ ih =>
    apply ih
    cases step with
    | change change => exact change_sound hs change
    | run admits => exact run_sound hs _
    | analyze admits => exact hs

theorem Reachable.sound {options : GeneratorOptions} {session : Session}
    (h : Reachable options session) : session.Sound := by
  obtain ⟨operations, answers, hsteps⟩ := h
  exact hsteps.sound (sound_new options)

theorem configure_sound {session : Session} (hs : session.Sound) (changes : List Change) :
    (session.configure changes).Sound := by
  induction changes generalizing session with
  | nil => exact hs
  | cons change rest ih => exact ih (change_sound hs change)

end Session

end SourceGen
