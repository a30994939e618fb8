import SourceGen.Proofs.Session.Invariant

/-! What generators do in a run that gives a result. It does not depend on when the run might have
been told to stop, and is made of what each generator collects and of what becomes of each unit of
work, whatever is kept from earlier runs. -/

namespace SourceGen

namespace RunInput

variable {input : RunInput} {memos others : Memos} {kind : GeneratorKind}

theorem recall_congr (h : memos kind = others kind) (cancelled : Bool) :
    (input.recall memos cancelled kind).1 = (input.recall others cancelled kind).1 := by
  have hv : memos.valid? input kind = others.valid? input kind := by
    simp [Memos.valid?, h]
  simp only [RunInput.recall, hv]
  split
  · rfl
  · split <;> rfl

/-- Being told to stop changes nothing but that it may be noticed. -/
theorem recall_cancelled (h : (input.recall memos true kind).1 ≠ .error .cancelled) :
    (input.recall memos true kind).1 = (input.recall memos false kind).1 := by
  cases hv : memos.valid? input kind with
  | some memo => simp [RunInput.recall, hv]
  | none =>
    have hfst (cancelled : Bool) :
        (input.recall memos cancelled kind).1 = kind.origin.collect input cancelled := by
      simp only [RunInput.recall, hv]
      split <;> rfl
    rw [hfst] at h ⊢
    rw [hfst, Origin.collect_eq, Origin.collect_eq]
    rw [Origin.collect_eq] at h
    by_cases hl : kind.origin.looks input = true
    · simp [hl] at h
    · simp [hl]

end RunInput

namespace StageRun

variable {input : RunInput} {cache : EmissionCache} {layout : Layout}

/-- What a generator does with what it has collected, or instead of it. -/
def ofCollected (cache : EmissionCache) (layout : Layout) (kind : GeneratorKind) :
    Except Failure (Collected kind.Context) → StageRun
  | .error failure => ⟨kind, [], [.failed failure]⟩
  | .ok collected =>
    ⟨kind, collected.diagnostics,
      (collected.contexts.map (WorkUnit.mk kind)).map (Outcome.undisturbed cache layout)⟩

private theorem ofKind_eq {state : RunState} {kind : GeneratorKind} {stage : StageRun}
    (h : (ofKind input cache layout state kind).1 = .ok stage) :
    stage = ofCollected cache layout kind (input.recall state.memos false kind).1 := by
  have hr : (input.recall state.memos state.stop.isDue kind).1 ≠ .error .cancelled := by
    intro he
    simp [ofKind, he] at h
  have hsame : (input.recall state.memos state.stop.isDue kind).1 =
      (input.recall state.memos false kind).1 := by
    cases hd : state.stop.isDue with
    | false => rfl
    | true => exact RunInput.recall_cancelled (hd ▸ hr)
  rw [← hsame]
  unfold ofKind at h
  cases hc : (input.recall state.memos state.stop.isDue kind).1 with
  | error failure =>
    simp only [hc] at h
    cases failure with
    | cancelled => exact absurd hc hr
    | _ => exact (Except.ok.inj h).symm
  | ok collected =>
    simp only [hc, Cancellation.through_eq (Outcome.ofUnit_eq cache layout)] at h
    split at h
    · simp [Except.map] at h
    · exact (Except.ok.inj h).symm

theorem ofKinds_eq {kinds : List GeneratorKind} (hn : kinds.Nodup) {state : RunState}
    {stages : List StageRun} (h : (ofKinds input cache layout state kinds).1 = .ok stages) :
    stages = kinds.map fun kind =>
      ofCollected cache layout kind (input.recall state.memos false kind).1 := by
  induction kinds generalizing state stages with
  | nil => exact (Except.ok.inj h).symm
  | cons kind kinds ih =>
    obtain ⟨hk, hn⟩ := List.nodup_cons.mp hn
    cases hf : (ofKind input cache layout state kind).1 with
    | error failure => simp [ofKinds_error cache layout hf] at h
    | ok stage =>
      rw [ofKinds_ok cache layout hf] at h
      cases hr : (ofKinds input cache layout (ofKind input cache layout state kind).2 kinds).1 with
      | error failure => simp [hr, Except.map] at h
      | ok rest =>
        obtain rfl : stage :: rest = stages := by simpa [hr, Except.map] using h
        rw [List.map_cons, ofKind_eq hf, ih hn hr]
        congr 1
        refine List.map_congr_left fun other hm => ?_
        -- Each generator changes its own memo only, so that later ones recall what they had.
        have hne : kind ≠ other := (ne_of_mem_of_not_mem hm hk).symm
        rw [RunInput.recall_congr (ofKind_other cache layout state hne)]

end StageRun

namespace Session

/-- What the generators do in a run, if it gives a result. -/
def work (session : Session) (stop : Cancellation) : Except Failure (List StageRun) :=
  (StageRun.ofKinds session.input session.cache session.options.layout ⟨stop, session.memos⟩
    GeneratorKind.all).1

/-- What a generator collects, or recalls to have collected, in a run that gives a result. -/
def collected (session : Session) (kind : GeneratorKind) :
    Except Failure (Collected kind.Context) :=
  (session.input.recall session.memos false kind).1

theorem run_fst (session : Session) (stop : Cancellation) :
    (session.run stop).1 = (session.work stop).map .ofStages := by
  unfold run work
  dsimp only
  split <;> next h => rw [h]; rfl

/-- Only a run that gives a result changes which files may be reused. -/
theorem run_cache (session : Session) (stop : Cancellation) :
    (session.run stop).2.cache =
      match session.work stop with
      | .ok stages => .ofStages stages
      | .error _ => session.cache := by
  unfold run work
  dsimp only
  split
  · next h =>
    rw [h]
    split <;> rfl
  · next h => rw [h]

theorem work_of_run {session : Session} {stop : Cancellation} {result : RunResult}
    (h : (session.run stop).1 = .ok result) :
    ∃ stages, session.work stop = .ok stages ∧ result = .ofStages stages := by
  rw [run_fst] at h
  cases hw : session.work stop with
  | error failure => simp [hw, Except.map] at h
  | ok stages =>
    rw [hw] at h
    exact ⟨stages, rfl, (Except.ok.inj h).symm⟩

theorem work_eq {session : Session} {stop : Cancellation} {stages : List StageRun}
    (h : session.work stop = .ok stages) :
    stages = GeneratorKind.all.map fun kind =>
      .ofCollected session.cache session.options.layout kind (session.collected kind) :=
  StageRun.ofKinds_eq GeneratorKind.all_nodup h

end Session

end SourceGen
