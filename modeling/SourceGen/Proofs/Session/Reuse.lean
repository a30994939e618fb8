import SourceGen.Proofs.Session.Atomicity
import SourceGen.Proofs.Session.Incremental
import SourceGen.Proofs.Session.Stages

/-! Which units of work a run reuses: those that the last run that gave a result emitted or reused,
whatever was asked in between. -/

namespace SourceGen

namespace Outcome

/-- Whether there are no files because they could not be emitted. -/
def isFailed : Outcome → Bool
  | failed _ => true
  | _ => false

/-- What becomes of the same unit of work in a run right after it. -/
def again : Outcome → Outcome
  | emitted unit files => reused unit files
  | outcome => outcome

theorem countP_add (outcomes : List Outcome) :
    outcomes.countP isEmitted + outcomes.countP isReused + outcomes.countP isFailed =
      outcomes.length := by
  induction outcomes with
  | nil => rfl
  | cons outcome rest ih =>
    cases outcome <;> simp [List.countP_cons, isEmitted, isReused, isFailed] <;> omega

theorem countP_again (outcomes : List Outcome) :
    (outcomes.map again).countP isEmitted = 0 ∧
      (outcomes.map again).countP isReused =
        outcomes.countP isEmitted + outcomes.countP isReused := by
  induction outcomes with
  | nil => exact ⟨rfl, rfl⟩
  | cons outcome rest ih =>
    obtain ⟨he, hr⟩ := ih
    rw [List.map_cons]
    cases outcome <;>
      simp only [again, List.countP_cons, isEmitted, isReused, he, hr] <;> simp <;> omega

/-- Whether a unit of work was reused exactly if it is one of those that were done, and else emitted
if that succeeds. -/
structure Follows (done : List WorkUnit) (layout : Layout) (unit : WorkUnit) (outcome : Outcome) :
    Prop where
  reused : outcome.isReused = true ↔ unit ∈ done
  emitted : outcome.isEmitted = true ↔ unit ∉ done ∧ (unit.emit layout false).isOk = true
  failed : outcome.isFailed = true ↔ unit ∉ done ∧ (unit.emit layout false).isOk = false

end Outcome

namespace EmissionCache

/-- Whether the units of work of which files are kept are some given ones. -/
def Keeps (cache : EmissionCache) (done : List WorkUnit) : Prop :=
  ∀ unit, (cache.lookup unit).isSome = true ↔ unit ∈ done

variable {cache : EmissionCache} {layout : Layout} {done : List WorkUnit}

/-- With files kept of some units of work, these are reused, and all others are emitted. -/
theorem Keeps.follows (hk : cache.Keeps done) (layout : Layout) (unit : WorkUnit) :
    (Outcome.undisturbed cache layout unit).Follows done layout unit := by
  have hdone := hk unit
  unfold Outcome.undisturbed
  cases hl : cache.lookup unit with
  | some files =>
    rw [hl] at hdone
    have hm : unit ∈ done := hdone.mp rfl
    constructor <;> simp [Outcome.isReused, Outcome.isEmitted, Outcome.isFailed, hm]
  | none =>
    rw [hl] at hdone
    have hm : unit ∉ done := fun hm => Bool.false_ne_true (hdone.mpr hm)
    cases he : unit.emit layout false <;>
      constructor <;>
      simp [Outcome.isReused, Outcome.isEmitted, Outcome.isFailed, Except.isOk, Except.toBool, hm,
        he]

section Sound

variable {later : EmissionCache} {unit : WorkUnit}

/-- Whether files are kept makes no difference to what they are. -/
theorem undisturbed_ok (hc : cache.Sound layout) {files : List GeneratedFile}
    (he : unit.emit layout false = .ok files) :
    Outcome.undisturbed cache layout unit =
      if (cache.lookup unit).isSome then .reused unit files else .emitted unit files := by
  unfold Outcome.undisturbed
  cases hl : cache.lookup unit with
  | none => simp [he]
  | some found =>
    have hf := hc (unit, found) (mem_of_lookup hl)
    obtain rfl : files = found := Except.ok.inj (he.symm.trans hf)
    simp

theorem undisturbed_error (hc : cache.Sound layout) {failure : Failure}
    (he : unit.emit layout false = .error failure) :
    Outcome.undisturbed cache layout unit = .failed failure := by
  unfold Outcome.undisturbed
  cases hl : cache.lookup unit with
  | none => simp [he]
  | some found =>
    have hf := hc (unit, found) (mem_of_lookup hl)
    simp [he] at hf

/-- With the files of all units of work kept that can be emitted, only those that cannot are tried
again. -/
theorem undisturbed_again (hc : cache.Sound layout) (hl : later.Sound layout)
    (hkept : (unit.emit layout false).isOk = true → (later.lookup unit).isSome = true) :
    Outcome.undisturbed later layout unit = (Outcome.undisturbed cache layout unit).again := by
  cases he : unit.emit layout false with
  | error failure =>
    rw [undisturbed_error hl he, undisturbed_error hc he]
    rfl
  | ok files =>
    have hsome : (later.lookup unit).isSome = true := hkept (by rw [he]; rfl)
    rw [undisturbed_ok hl he, undisturbed_ok hc he, if_pos hsome]
    split <;> rfl

end Sound

end EmissionCache

/-- The units of work that a generator reused or emitted. -/
def StageRun.done (stage : StageRun) : List WorkUnit :=
  (stage.outcomes.filterMap Outcome.kept?).map (·.1)

/-- What a generator does in a run right after a run in which it did something. -/
def StageRun.again (stage : StageRun) : StageRun :=
  { stage with outcomes := stage.outcomes.map Outcome.again }

theorem StageRun.done_eq (stages : List StageRun) :
    stages.flatMap done = ((stages.flatMap (·.outcomes)).filterMap Outcome.kept?).map (·.1) := by
  rw [List.filterMap_flatMap, List.map_flatMap]
  rfl

/-- What a run keeps are the files of the units of work that it reused or emitted. -/
theorem EmissionCache.keeps_ofStages (stages : List StageRun) :
    (EmissionCache.ofStages stages).Keeps (stages.flatMap StageRun.done) := by
  intro unit
  have hkeys : unit ∈ stages.flatMap StageRun.done ↔
      unit ∈ (EmissionCache.ofStages stages).map (·.1) := by
    rw [StageRun.done_eq, ofStages, List.map_reverse, List.mem_reverse]
  rw [hkeys, List.lookup_isSome_iff, List.mem_map]
  constructor
  · rintro ⟨entry, hm, he⟩
    exact ⟨entry, hm, (beq_iff_eq.mp he).symm⟩
  · rintro ⟨entry, hm, rfl⟩
    exact ⟨entry, hm, beq_self_eq_true _⟩

/-- Whether an answer is the result of a run. -/
def Answer.isResult : Answer → Bool
  | ran (.ok _) => true
  | _ => false

namespace Session

theorem change_cache (session : Session) (change : Change) :
    (session.change change).cache = session.cache := by
  cases change with
  | compilation compilation =>
    simp only [Session.change, setCompilation]
    split <;> rfl
  | files files config => rfl

section Steps

variable {first middle last : Session} {operations others : List Operation}
  {answers : List Answer}

theorem Steps.append {more : List Answer} (h : Steps first operations answers middle)
    (ht : Steps middle others more last) :
    Steps first (operations ++ others) (answers ++ more) last := by
  induction h with
  | nil => exact ht
  | cons step _ ih => exact .cons step (ih ht)

theorem Reachable.steps {options : GeneratorOptions} (h : Reachable options first)
    (hsteps : Steps first operations answers last) : Reachable options last := by
  obtain ⟨earlier, found, h⟩ := h
  exact ⟨_, _, h.append hsteps⟩

/-- Only a run that gives a result changes which files may be reused. -/
theorem Steps.cache (h : Steps first operations answers last)
    (hnone : ∀ answer ∈ answers, answer.isResult = false) : last.cache = first.cache := by
  induction h with
  | nil => rfl
  | cons step _ ih =>
    obtain ⟨hfirst, hrest⟩ := List.forall_mem_cons.mp hnone
    rw [ih hrest]
    cases step with
    | change made => exact change_cache _ made
    | @run timing stop admits =>
      rw [run_cache]
      split
      · next stages hw => simp [run_fst, hw, Except.map, Answer.isResult] at hfirst
      · rfl
    | analyze admits => rfl

theorem Steps.options (h : Steps first operations answers last) : last.options = first.options := by
  induction h with
  | nil => rfl
  | cons step _ ih =>
    rw [ih]
    cases step with
    | change made => exact change_options _ made
    | @run timing stop admits =>
      obtain ⟨memos, cache, hkept⟩ := run_kept _ stop
      rw [hkept]
    | analyze admits => rfl

end Steps

/-- Whether some units of work are those that were reused or emitted in the last run that gave a
result, among all that was ever asked of a session; there are none if no run did. -/
inductive LastDone (options : GeneratorOptions) : Session → List WorkUnit → Prop
  | never {operations : List Operation} {answers : List Answer} {session : Session}
    (steps : Steps { options } operations answers session)
    (none : ∀ answer ∈ answers, answer.isResult = false) : LastDone options session []
  | run {start session : Session} {stop : Cancellation} {stages : List StageRun}
    {operations : List Operation} {answers : List Answer}
    (reachable : Reachable options start) (work : start.work stop = .ok stages)
    (steps : Steps (start.run stop).2 operations answers session)
    (none : ∀ answer ∈ answers, answer.isResult = false) :
    LastDone options session (stages.flatMap StageRun.done)

section LastDone

variable {options : GeneratorOptions} {session : Session} {done : List WorkUnit}

private theorem reachable_run (h : Reachable options session) (stop : Cancellation) :
    Reachable options (session.run stop).2 :=
  h.steps (.cons (.run session (show Timing.anyTime.Admits stop from trivial)) (.nil _))

theorem LastDone.reachable (h : LastDone options session done) : Reachable options session := by
  cases h with
  | never steps none => exact ⟨_, _, steps⟩
  | run reachable work steps none => exact (reachable_run reachable _).steps steps

/-- Files are kept of exactly the units of work that were done last. -/
theorem LastDone.keeps (h : LastDone options session done) : session.cache.Keeps done := by
  cases h with
  | never steps none =>
    rw [steps.cache none]
    intro unit
    simp
  | @run start _ stop stages _ _ _ work steps none =>
    rw [steps.cache none, run_cache, work]
    exact EmissionCache.keeps_ofStages stages

private theorem LastDone.step {next : Session} {operation : Operation} {answer : Answer}
    (h : LastDone options session done) (hstep : Step session operation answer next) :
    ∃ done, LastDone options next done := by
  by_cases hresult : answer.isResult = true
  · cases hstep with
    | change made => simp [Answer.isResult] at hresult
    | analyze admits => simp [Answer.isResult] at hresult
    | @run timing stop admits =>
      cases hw : session.work stop with
      | error failure => simp [run_fst, hw, Except.map, Answer.isResult] at hresult
      | ok stages => exact ⟨_, .run h.reachable hw (.nil _) (by simp)⟩
  · rw [Bool.not_eq_true] at hresult
    -- Without a result, the step only makes longer what was asked since the last one.
    have hone : Steps session [operation] [answer] next := .cons hstep (.nil _)
    cases h with
    | never steps none =>
      refine ⟨_, .never (steps.append hone) fun found hm => ?_⟩
      rcases List.mem_append.mp hm with hm | hm
      · exact none found hm
      · exact List.mem_singleton.mp hm ▸ hresult
    | run reachable work steps none =>
      refine ⟨_, .run reachable work (steps.append hone) fun found hm => ?_⟩
      rcases List.mem_append.mp hm with hm | hm
      · exact none found hm
      · exact List.mem_singleton.mp hm ▸ hresult

theorem exists_lastDone (h : Reachable options session) :
    ∃ done, LastDone options session done := by
  obtain ⟨operations, answers, hsteps⟩ := h
  have hgo {first last : Session} {operations : List Operation} {answers : List Answer}
      (hsteps : Steps first operations answers last) {done : List WorkUnit}
      (h : LastDone options first done) : ∃ done, LastDone options last done := by
    induction hsteps generalizing done with
    | nil => exact ⟨done, h⟩
    | cons step _ ih =>
      obtain ⟨next, hnext⟩ := h.step step
      exact ih hnext
  exact hgo hsteps (.never (.nil _) (by simp))

end LastDone

end Session

namespace RunInput

/-- All units of work that the generators collect which can collect some. -/
def units (input : RunInput) : List WorkUnit :=
  GeneratorKind.all.flatMap fun kind =>
    match kind.origin.collect input false with
    | .ok collected => collected.contexts.map (WorkUnit.mk kind)
    | .error _ => []

theorem units_eq (input : RunInput) :
    input.units = GeneratorKind.all.flatMap fun kind =>
      (kind.origin.gather input).contexts.map (WorkUnit.mk kind) := by
  simp only [units, Origin.collect_eq, Bool.false_and, Bool.false_eq_true, if_false]

end RunInput

namespace Session

variable {session : Session} {stop : Cancellation} {stages : List StageRun}

theorem work_sound (hs : session.Sound) (h : session.work stop = .ok stages) :
    stages = session.stages := by
  rw [work_eq h, Session.stages]
  refine List.map_congr_left fun kind _ => ?_
  rw [collected, RunInput.recall_fst (hs.memos kind)]
  rfl

/-- What becomes of the units of work, one by one. -/
theorem outcomes_stages (session : Session) :
    session.stages.flatMap (·.outcomes) =
      session.input.units.map (Outcome.undisturbed session.cache session.options.layout) := by
  rw [RunInput.units_eq, List.map_flatMap, Session.stages, List.flatMap_map]
  rfl

/-- Every unit of work that can be emitted is done in an undisturbed run. -/
private theorem mem_done (hs : session.Sound) {unit : WorkUnit} (hm : unit ∈ session.input.units)
    (hok : (unit.emit session.options.layout false).isOk = true) :
    unit ∈ session.stages.flatMap StageRun.done := by
  cases he : unit.emit session.options.layout false with
  | error failure => simp [he, Except.isOk, Except.toBool] at hok
  | ok files =>
    have hkept : (Outcome.undisturbed session.cache session.options.layout unit).kept? =
        some (unit, files) := by
      rw [EmissionCache.undisturbed_ok hs.cache he]
      split <;> rfl
    rw [StageRun.done_eq, outcomes_stages, List.filterMap_map]
    exact List.mem_map.mpr ⟨_, List.mem_filterMap.mpr ⟨unit, hm, hkept⟩, rfl⟩

/-- In a run that comes after a run that gave a result, on the same input, everything that was done
is reused. -/
private theorem stages_again (hs : session.Sound) {last : Session} (hl : last.Sound)
    (hinput : last.input = session.input) (hoptions : last.options = session.options)
    (hcache : last.cache = .ofStages session.stages) :
    last.stages = session.stages.map StageRun.again := by
  rw [stages, stages, List.map_map]
  refine List.map_congr_left fun kind hk => ?_
  have hsound := hl.cache
  rw [hoptions] at hsound
  simp only [StageRun.undisturbed, StageRun.again, Function.comp_apply, hinput, hoptions,
    List.map_map]
  congr 1
  refine List.map_congr_left fun context hm => ?_
  apply EmissionCache.undisturbed_again hs.cache hsound
  intro hok
  have hunit : WorkUnit.mk kind context ∈ session.input.units := by
    rw [RunInput.units_eq]
    exact List.mem_flatMap.mpr ⟨kind, hk, List.mem_map_of_mem hm⟩
  -- What can be emitted was done in the first run, whether it was reused there or not.
  rw [hcache]
  exact (EmissionCache.keeps_ofStages _ _).mpr (mem_done hs hunit hok)

/-- A run on the input of an earlier one, without a result in between, reuses what that one emitted
or reused, and gives the same sources and diagnostics. -/
theorem run_again (hs : session.Sound) {result : RunResult}
    (hrun : (session.run stop).1 = .ok result) {last : Session} {operations : List Operation}
    {answers : List Answer} (hlater : Steps (session.run stop).2 operations answers last)
    (hnone : ∀ answer ∈ answers, answer.isResult = false) (hinput : last.input = session.input)
    {stop' : Cancellation} {repeated : RunResult} (hrepeated : (last.run stop').1 = .ok repeated) :
    last.work stop' = .ok (session.stages.map StageRun.again) ∧
      repeated.sources = result.sources ∧ repeated.diagnostics = result.diagnostics ∧
      repeated.emitted = 0 ∧ repeated.reused = result.emitted + result.reused := by
  have hl : last.Sound := hlater.sound (run_sound hs stop)
  obtain ⟨stages, hw, rfl⟩ := work_of_run hrun
  obtain rfl := work_sound hs hw
  obtain ⟨stages, hw', rfl⟩ := work_of_run hrepeated
  obtain rfl := work_sound hl hw'
  have hcache : last.cache = .ofStages session.stages := by
    rw [hlater.cache hnone, run_cache, hw]
  have hoptions : last.options = session.options := by
    obtain ⟨memos, cache, hkept⟩ := run_kept session stop
    rw [hlater.options, hkept]
  have hagain := stages_again hs hl hinput hoptions hcache
  have houtcomes : last.stages.flatMap (·.outcomes) =
      (session.stages.flatMap (·.outcomes)).map Outcome.again := by
    rw [hagain, List.flatMap_map, List.map_flatMap]
    rfl
  obtain ⟨hsources, hdiagnostics⟩ := run_result hs hrun
  obtain ⟨hsources', hdiagnostics'⟩ := run_result hl hrepeated
  obtain ⟨hemitted, hreused⟩ := Outcome.countP_again (session.stages.flatMap (·.outcomes))
  rw [← houtcomes] at hemitted hreused
  refine ⟨hagain ▸ hw', ?_, ?_, hemitted, hreused⟩
  · rw [hsources', hsources, hinput, hoptions]
  · rw [hdiagnostics', hdiagnostics, hinput]

/-- A run reuses exactly the units of work that the last run that gave a result emitted or reused,
and emits all others that it can. Run again on the same input, it reuses all that it emitted or
reused and adds the same sources. -/
theorem reuse_exact {options : GeneratorOptions} {session : Session}
    (hreachable : Reachable options session) :
    (∃ done, LastDone options session done) ∧
    ∀ done, LastDone options session done →
      ∀ (stop : Cancellation) (result : RunResult), (session.run stop).1 = .ok result →
        ∃ stages, session.work stop = .ok stages ∧
          List.Forall₂ (Outcome.Follows done session.options.layout) session.input.units
            (stages.flatMap (·.outcomes)) ∧
          result.reused = session.input.units.countP (fun unit => decide (unit ∈ done)) ∧
          result.emitted = session.input.units.countP (fun unit =>
            decide (unit ∉ done) && (unit.emit session.options.layout false).isOk) ∧
          result.emitted + result.reused + (stages.flatMap (·.outcomes)).countP Outcome.isFailed =
            session.input.units.length ∧
          ∀ (later : List Operation) (answers : List Answer) (last : Session),
            Steps (session.run stop).2 later answers last →
            (∀ answer ∈ answers, answer.isResult = false) → last.input = session.input →
            ∀ (stop' : Cancellation) (repeated : RunResult), (last.run stop').1 = .ok repeated →
              last.work stop' = .ok (stages.map StageRun.again) ∧
              repeated.sources = result.sources ∧ repeated.diagnostics = result.diagnostics ∧
              repeated.emitted = 0 ∧ repeated.reused = result.emitted + result.reused := by
  refine ⟨exists_lastDone hreachable, fun done hdone stop result hrun => ?_⟩
  have hs : session.Sound := hreachable.sound
  obtain ⟨stages, hw, rfl⟩ := work_of_run hrun
  obtain rfl := work_sound hs hw
  have hfollows (unit : WorkUnit) := hdone.keeps.follows session.options.layout unit
  refine ⟨_, hw, ?_, ?_, ?_, ?_, ?_⟩
  · rw [outcomes_stages, List.forall₂_map_right_iff]
    exact List.forall₂_same.mpr fun unit _ => hfollows unit
  · show (session.stages.flatMap (·.outcomes)).countP Outcome.isReused = _
    rw [outcomes_stages, List.countP_map]
    refine List.countP_congr fun unit _ => ?_
    rw [decide_eq_true_iff]
    exact (hfollows unit).reused
  · show (session.stages.flatMap (·.outcomes)).countP Outcome.isEmitted = _
    rw [outcomes_stages, List.countP_map]
    refine List.countP_congr fun unit _ => ?_
    rw [Bool.and_eq_true, decide_eq_true_iff]
    exact (hfollows unit).emitted
  · have hlength := congrArg List.length (outcomes_stages session)
    rw [List.length_map] at hlength
    exact (Outcome.countP_add _).trans hlength
  · intro later answers last hlater hnone hinput stop' repeated hrepeated
    exact run_again hs hrun hlater hnone hinput hrepeated

/-- The registrations of a program are emitted by its first run and reused by the next one, with a
run in between that is told to stop. -/
theorem reuse_exact_program :
    let session := Session.change { options := { emitMarkers := false } }
      (.compilation { assemblyName := "App" })
    let last := ((session.run .never).2.run (.after 0)).2
    ∃ result repeated, (session.run .never).1 = .ok result ∧ result.emitted = 2 ∧
      result.reused = 0 ∧ (last.run .never).1 = .ok repeated ∧ repeated.emitted = 0 ∧
      repeated.reused = 2 ∧ repeated.sources = result.sources := by
  intro session last
  have hsteps : Steps { options := { emitMarkers := false } } _ [.changed] session :=
    .cons (.change _ _) (.nil _)
  have hs : session.Sound := hsteps.sound (sound_new _)
  obtain ⟨result, hrun⟩ := run_never hs
  have hstopped : ((session.run .never).2.run (.after 0)).1 = .error .cancelled := by
    obtain ⟨memos, cache, hkept⟩ := run_kept session .never
    apply run_before (run_sound hs .never)
    rw [hkept]
    exact notices_of_compilation rfl
  have hlater : Steps (session.run .never).2 [.run .before] [.ran (.error .cancelled)] last :=
    hstopped ▸ .cons (.run _ rfl) (.nil _)
  have hinput : last.input = session.input := by
    obtain ⟨memos, cache, hfirst⟩ := run_kept session .never
    obtain ⟨memos', cache', hsecond⟩ := run_kept (session.run .never).2 (.after 0)
    rw [show last = _ from hsecond, hfirst]
    rfl
  obtain ⟨repeated, hrepeated⟩ := run_never (hlater.sound (run_sound hs .never))
  obtain ⟨-, hdone⟩ := reuse_exact ⟨_, _, hsteps⟩
  obtain ⟨stages, -, -, hreused, hemitted, -, hagain⟩ :=
    hdone [] (.never hsteps (by simp [Answer.isResult])) .never result hrun
  obtain ⟨-, hsources, -, hnone, hall⟩ :=
    hagain _ _ last hlater (by simp [Answer.isResult]) hinput .never repeated hrepeated
  have hcount : session.input.units.countP (fun unit =>
      decide (unit ∉ []) && (unit.emit session.options.layout false).isOk) = 2 := by
    decide +kernel
  have hzero : result.reused = 0 := by
    rw [hreused]
    simp
  rw [hcount] at hemitted
  rw [hemitted, hzero] at hall
  exact ⟨result, repeated, hrun, hemitted, hzero, hrepeated, hnone, hall, hsources⟩

end Session

end SourceGen
