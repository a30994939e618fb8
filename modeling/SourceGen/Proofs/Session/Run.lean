import SourceGen.Proofs.Collections
import SourceGen.Proofs.Session.Collection
import SourceGen.Session.Run

/-! What one run does. If it is not told to stop in time, it gives what the input alone decides,
whatever is kept from earlier runs; else it fails as a whole. -/

namespace SourceGen

namespace Cancellation

/-- What is left after some steps. -/
def elapse : Cancellation → Nat → Cancellation
  | never, _ => never
  | after steps, passed => after (steps - passed)

/-- Whether one of the next steps finds that the run was told to stop. -/
def isWithin : Cancellation → Nat → Bool
  | never, _ => false
  | after steps, coming => decide (steps < coming)

theorem pos_of_isWithin {stop : Cancellation} {steps : Nat} (h : stop.isWithin steps = true) :
    0 < steps := by
  cases stop with
  | never => simp [isWithin] at h
  | after passed => exact Nat.zero_lt_of_lt (of_decide_eq_true h)

/-- Steps that fail only by being told to stop give all of their results or none. -/
theorem through_eq {α β : Type} {step : Bool → α → Except Failure β} {undisturbed : α → β}
    (hstep : ∀ cancelled item,
      step cancelled item = if cancelled then .error .cancelled else .ok (undisturbed item))
    (stop : Cancellation) (items : List α) :
    through step stop items =
      (if stop.isWithin items.length then .error .cancelled else .ok (items.map undisturbed),
        stop.elapse items.length) := by
  induction items generalizing stop with
  | nil => cases stop <;> simp [through, isWithin, elapse]
  | cons item rest ih =>
    cases stop with
    | never => simp [through, hstep, isDue, next, ih, isWithin, elapse, Except.map]
    | after steps =>
      cases steps with
      | zero => simp [through, hstep, isDue, next, isWithin, elapse]
      | succ steps =>
        simp only [through, hstep, isDue, next, ih, isWithin, elapse, List.length_cons]
        by_cases h : steps < rest.length <;> simp [h, Except.map]

end Cancellation

/-- Only being cancelled keeps a unit of work from being looked at. -/
theorem WorkUnit.emit_ne_cancelled (unit : WorkUnit) (layout : Layout) :
    unit.emit layout false ≠ .error .cancelled := by
  unfold WorkUnit.emit Stage.emit
  cases unit.kind.stage.fits layout unit.context <;> simp

namespace Outcome

/-- What becomes of a unit of work if the run is not told to stop. -/
def undisturbed (cache : EmissionCache) (layout : Layout) (unit : WorkUnit) : Outcome :=
  match cache.lookup unit with
  | some files => reused unit files
  | none =>
    match unit.emit layout false with
    | .ok files => emitted unit files
    | .error failure => failed failure

theorem ofUnit_eq (cache : EmissionCache) (layout : Layout) (cancelled : Bool)
    (unit : WorkUnit) :
    ofUnit cache layout cancelled unit =
      if cancelled then .error .cancelled else .ok (undisturbed cache layout unit) := by
  cases cancelled with
  | true => rfl
  | false =>
    have hne := unit.emit_ne_cancelled layout
    unfold ofUnit undisturbed
    cases cache.lookup unit with
    | some files => rfl
    | none =>
      cases he : unit.emit layout false with
      | ok files => simp
      | error failure =>
        cases failure with
        | cancelled => exact absurd he hne
        | _ => simp

end Outcome

namespace EmissionCache

/-- Whether all files that are kept are those of their units of work. -/
def Sound (cache : EmissionCache) (layout : Layout) : Prop :=
  ∀ entry ∈ cache, entry.1.emit layout false = .ok entry.2

theorem sound_nil (layout : Layout) : EmissionCache.Sound [] layout :=
  fun _ h => nomatch h

private theorem emit_of_lookup {cache : EmissionCache} {layout : Layout} {unit : WorkUnit}
    {files : List GeneratedFile} (hc : cache.Sound layout) (h : cache.lookup unit = some files) :
    unit.emit layout false = .ok files :=
  hc (unit, files) (mem_of_lookup h)

/-- A sound cache changes no files. -/
theorem results_undisturbed {cache : EmissionCache} {layout : Layout} (hc : cache.Sound layout)
    (unit : WorkUnit) :
    (Outcome.undisturbed cache layout unit).results =
      (Outcome.undisturbed [] layout unit).results := by
  cases h : cache.lookup unit with
  | none => simp [Outcome.undisturbed, h]
  | some files =>
    simp [Outcome.undisturbed, h, emit_of_lookup hc h, Outcome.results]

/-- What a unit of work leaves for the next run is what it emits. -/
theorem emit_of_kept {cache : EmissionCache} {layout : Layout} (hc : cache.Sound layout)
    {unit : WorkUnit} {entry : WorkUnit × List GeneratedFile}
    (h : (Outcome.undisturbed cache layout unit).kept? = some entry) :
    entry.1.emit layout false = .ok entry.2 := by
  cases hl : cache.lookup unit with
  | some files =>
    obtain rfl : (unit, files) = entry := by
      simpa [Outcome.undisturbed, hl, Outcome.kept?] using h
    exact emit_of_lookup hc hl
  | none =>
    cases he : unit.emit layout false with
    | error failure => simp [Outcome.undisturbed, hl, he, Outcome.kept?] at h
    | ok files =>
      obtain rfl : (unit, files) = entry := by
        simpa [Outcome.undisturbed, hl, he, Outcome.kept?] using h
      exact he

end EmissionCache

namespace StageRun

/-- What a generator does if the run is not told to stop. -/
def undisturbed (input : RunInput) (cache : EmissionCache) (layout : Layout)
    (kind : GeneratorKind) : StageRun :=
  let collected := kind.origin.gather input
  ⟨kind, collected.diagnostics,
    (collected.contexts.map (WorkUnit.mk kind)).map (Outcome.undisturbed cache layout)⟩

theorem sources_undisturbed {cache : EmissionCache} {layout : Layout} (hc : cache.Sound layout)
    (input : RunInput) (kind : GeneratorKind) :
    (undisturbed input cache layout kind).sources = (undisturbed input [] layout kind).sources := by
  have hr : (fun unit => (Outcome.undisturbed cache layout unit).results) =
      fun unit => (Outcome.undisturbed [] layout unit).results :=
    funext (EmissionCache.results_undisturbed hc)
  simp only [sources, undisturbed, List.flatMap_map, hr]

end StageRun

/-- What is kept of an undisturbed run is sound. -/
theorem EmissionCache.sound_ofStages {cache : EmissionCache} {layout : Layout}
    (hc : cache.Sound layout) (input : RunInput) (kinds : List GeneratorKind) :
    (EmissionCache.ofStages (kinds.map (StageRun.undisturbed input cache layout))).Sound
      layout := by
  intro entry h
  simp only [EmissionCache.ofStages, List.mem_reverse, List.mem_filterMap, List.mem_flatMap,
    List.mem_map] at h
  obtain ⟨outcome, ⟨_, ⟨kind, _, rfl⟩, ho⟩, hk⟩ := h
  simp only [StageRun.undisturbed, List.map_map, List.mem_map, Function.comp_apply] at ho
  obtain ⟨context, _, rfl⟩ := ho
  exact emit_of_kept hc hk

namespace Memos

/-- Whether a generator will notice in a run that the run was told to stop before it started. -/
def notices (memos : Memos) (input : RunInput) (kind : GeneratorKind) : Bool :=
  memos.looks input kind || !(kind.origin.gather input).contexts.isEmpty

theorem looks_congr {memos others : Memos} {input : RunInput} {kind : GeneratorKind}
    (h : memos kind = others kind) : memos.looks input kind = others.looks input kind := by
  simp [looks, valid?, h]

theorem notices_congr {memos others : Memos} {input : RunInput} {kind : GeneratorKind}
    (h : memos kind = others kind) : memos.notices input kind = others.notices input kind := by
  rw [notices, notices, looks_congr h]

end Memos

namespace RunInput

/-- What is recalled is what is collected. Only a generator that has nothing to recall can notice
that the run was told to stop. -/
theorem recall_fst {memos : Memos} {input : RunInput} {kind : GeneratorKind}
    (hs : memos.SoundAt input kind) (cancelled : Bool) :
    (input.recall memos cancelled kind).1 =
      if cancelled && memos.looks input kind then .error .cancelled
      else .ok (kind.origin.gather input) := by
  cases hv : memos.valid? input kind with
  | some memo => simp [RunInput.recall, hv, Memos.looks, Memos.valid?_collected hs hv]
  | none =>
    simp only [RunInput.recall, hv]
    split <;> simp [Origin.collect_eq, Memos.looks, hv]

/-- What was collected is kept. -/
private theorem recall_kept {memos : Memos} {input : RunInput} {kind : GeneratorKind}
    (hs : memos.SoundAt input kind) {cancelled : Bool}
    (h : (input.recall memos cancelled kind).1 = .ok (kind.origin.gather input)) :
    (input.recall memos cancelled kind).2.SoundAt input kind ∧
      (input.recall memos cancelled kind).2.looks input kind = false := by
  cases hv : memos.valid? input kind with
  | some memo => simpa [RunInput.recall, hv, Memos.looks] using hs
  | none =>
    by_cases ho : (kind.origin.isProgram || kind.origin.isFiles) = true
    · simp only [RunInput.recall, hv, ho, if_true] at h ⊢
      refine ⟨?_, by simp [Memos.looks, Memos.valid?_record]⟩
      intro memo hm
      obtain rfl := Option.some.inj ((Memos.record_self ..).symm.trans hm)
      simpa [withFiles_own] using h
    · simp only [RunInput.recall, hv, ho]
      refine ⟨hs, ?_⟩
      cases hk : kind.origin <;> simp_all [Memos.looks, Origin.looks, Origin.isProgram,
        Origin.isFiles]

private theorem recall_lost {memos : Memos} {input : RunInput} {kind : GeneratorKind}
    (hs : memos.SoundAt input kind) (cancelled : Bool)
    (hl : kind.origin.looks input = false) :
    (input.recall memos cancelled kind).2.SoundAt input kind := by
  have hn : memos.looks input kind = false := by simp [Memos.looks, hl]
  have h := recall_fst hs cancelled
  rw [hn, Bool.and_false] at h
  exact (recall_kept hs h).1

private theorem recall_other (memos : Memos) (input : RunInput) (cancelled : Bool)
    {kind other : GeneratorKind} (h : kind ≠ other) :
    (input.recall memos cancelled kind).2 other = memos other := by
  unfold RunInput.recall
  split
  · rfl
  · split
    · exact Memos.record_other _ _ h
    · rfl

end RunInput

namespace StageRun

variable {input : RunInput} (cache : EmissionCache) (layout : Layout)

private theorem ofKind_memos (state : RunState) (kind : GeneratorKind) :
    (ofKind input cache layout state kind).2.memos =
      (input.recall state.memos state.stop.isDue kind).2 := by
  unfold ofKind
  cases input.recall state.memos state.stop.isDue kind with
  | mk collected memos =>
    cases collected with
    | ok collected => rfl
    | error failure => cases failure <;> rfl

theorem ofKind_other (state : RunState) {kind other : GeneratorKind}
    (h : kind ≠ other) :
    (ofKind input cache layout state kind).2.memos other = state.memos other := by
  rw [ofKind_memos, RunInput.recall_other _ _ _ h]

/-- A generator does what it does undisturbed, unless it notices that the run was told to stop. -/
private theorem ofKind_fst {state : RunState} {kind : GeneratorKind}
    (hs : state.memos.SoundAt input kind) :
    (ofKind input cache layout state kind).1 =
      if (state.stop.isDue && state.memos.looks input kind) ||
          state.stop.next.isWithin (kind.origin.gather input).contexts.length then
        .error .cancelled
      else .ok (undisturbed input cache layout kind) := by
  have hr := RunInput.recall_fst hs state.stop.isDue
  unfold ofKind
  by_cases h : (state.stop.isDue && state.memos.looks input kind) = true
  · rw [if_pos h] at hr
    simp [hr, h]
  · rw [if_neg h] at hr
    simp only [hr, h, Cancellation.through_eq (Outcome.ofUnit_eq cache layout), List.length_map,
      Bool.false_or]
    by_cases hw : state.stop.next.isWithin (kind.origin.gather input).contexts.length = true
    · simp [hw, Except.map]
    · simp [hw, Except.map, undisturbed]

private theorem ofKind_before {state : RunState} {kind : GeneratorKind}
    (hs : state.memos.SoundAt input kind) (hstop : state.stop = .after 0) :
    (ofKind input cache layout state kind).1 =
      if state.memos.notices input kind then .error .cancelled
      else .ok (undisturbed input cache layout kind) := by
  rw [ofKind_fst cache layout hs]
  cases hl : state.memos.looks input kind <;>
    cases hc : (kind.origin.gather input).contexts <;>
    simp [Memos.notices, hl, hc, hstop, Cancellation.isDue, Cancellation.next,
      Cancellation.isWithin]

private theorem ofKind_stop {state : RunState} {kind : GeneratorKind}
    (hs : state.memos.SoundAt input kind)
    (hok : (ofKind input cache layout state kind).1 = .ok (undisturbed input cache layout kind)) :
    (ofKind input cache layout state kind).2.stop =
      state.stop.elapse (1 + (kind.origin.gather input).contexts.length) := by
  have hr := RunInput.recall_fst hs state.stop.isDue
  rw [ofKind_fst cache layout hs] at hok
  split at hok
  · simp at hok
  · next hn =>
    rw [if_neg (by simp_all)] at hr
    unfold ofKind
    simp only [hr, Cancellation.through_eq (Outcome.ofUnit_eq cache layout), List.length_map]
    cases state.stop with
    | never => rfl
    | after steps => simp [Cancellation.elapse, Cancellation.next]; omega

/-- A generator of which everything kept is sound fails as a whole only if it notices that the run
was told to stop. Then what it collected is lost, if it looked while it collected. -/
private theorem ofKind_cases {state : RunState} (kind : GeneratorKind)
    (hs : state.memos.Sound input) :
    ((ofKind input cache layout state kind).1 = .ok (undisturbed input cache layout kind) ∧
      (ofKind input cache layout state kind).2.memos.Sound input ∧
      (ofKind input cache layout state kind).2.memos.looks input kind = false) ∨
    ((ofKind input cache layout state kind).1 = .error .cancelled ∧ state.stop ≠ .never ∧
      state.memos.notices input kind = true ∧
      ∀ other, other.origin.looks input = false →
        (ofKind input cache layout state kind).2.memos.SoundAt input other) := by
  have hf := ofKind_fst cache layout (hs kind)
  have ho {other : GeneratorKind} (h : kind ≠ other) :
      (ofKind input cache layout state kind).2.memos.SoundAt input other := by
    have := hs other
    rwa [Memos.SoundAt, ← ofKind_other cache layout state h] at this
  split at hf
  · next hd =>
    refine .inr ⟨hf, ?_, ?_, ?_⟩
    · rintro hstop
      simp [hstop, Cancellation.isDue, Cancellation.next, Cancellation.isWithin] at hd
    · rcases Bool.or_eq_true_iff.mp hd with hd | hd
      · simp [Memos.notices, (Bool.and_eq_true_iff.mp hd).2]
      · have hp := Cancellation.pos_of_isWithin hd
        simp [Memos.notices, List.ne_nil_of_length_pos hp]
    · intro other hl
      by_cases h : kind = other
      · subst h
        rw [ofKind_memos]
        exact RunInput.recall_lost (hs kind) _ hl
      · exact ho h
  · next hd =>
    have hr := RunInput.recall_fst (hs kind) state.stop.isDue
    rw [if_neg (by simp_all)] at hr
    obtain ⟨hk, hl⟩ := RunInput.recall_kept (hs kind) hr
    rw [← ofKind_memos cache layout] at hk hl
    refine .inl ⟨hf, fun other => ?_, hl⟩
    by_cases h : kind = other
    · exact h ▸ hk
    · exact ho h

theorem ofKinds_ok {state : RunState} {kind : GeneratorKind} {run : StageRun}
    (h : (ofKind input cache layout state kind).1 = .ok run) (kinds : List GeneratorKind) :
    ofKinds input cache layout state (kind :: kinds) =
      let rest := ofKinds input cache layout (ofKind input cache layout state kind).2 kinds
      (rest.1.map (run :: ·), rest.2) := by
  rw [ofKinds]
  split
  · next he => simp [he] at h
  · next he =>
    simp only [he, Except.ok.injEq] at h ⊢
    rw [h]

theorem ofKinds_error {state : RunState} {kind : GeneratorKind} {failure : Failure}
    (h : (ofKind input cache layout state kind).1 = .error failure) (kinds : List GeneratorKind) :
    ofKinds input cache layout state (kind :: kinds) =
      (.error failure, (ofKind input cache layout state kind).2) := by
  rw [ofKinds]
  split
  · next he =>
    simp only [he, Except.error.injEq] at h ⊢
    rw [h]
  · next he => simp [he] at h

private theorem ofKinds_other {kinds : List GeneratorKind} {other : GeneratorKind}
    (h : other ∉ kinds) (state : RunState) :
    (ofKinds input cache layout state kinds).2.memos other = state.memos other := by
  induction kinds generalizing state with
  | nil => rfl
  | cons kind kinds ih =>
    obtain ⟨hk, hr⟩ := not_or.mp (mt List.mem_cons.mpr h)
    have ho : (ofKind input cache layout state kind).2.memos other = state.memos other :=
      ofKind_other cache layout state (Ne.symm hk)
    cases hf : (ofKind input cache layout state kind).1 with
    | ok run => rw [ofKinds_ok cache layout hf, ih hr, ho]
    | error failure => rw [ofKinds_error cache layout hf, ho]

/-- A run of which everything kept is sound does what it does undisturbed, and keeps everything that
it collected, or fails as a whole, because some generator noticed that it was told to stop. -/
theorem ofKinds_cases {kinds : List GeneratorKind} (hn : kinds.Nodup) {state : RunState}
    (hs : state.memos.Sound input) :
    ((ofKinds input cache layout state kinds).1 =
        .ok (kinds.map (undisturbed input cache layout)) ∧
      (ofKinds input cache layout state kinds).2.memos.Sound input ∧
      ∀ kind ∈ kinds, (ofKinds input cache layout state kinds).2.memos.looks input kind = false) ∨
    ((ofKinds input cache layout state kinds).1 = .error .cancelled ∧ state.stop ≠ .never ∧
      (∃ kind ∈ kinds, state.memos.notices input kind = true) ∧
      ∀ kind, kind.origin.looks input = false →
        (ofKinds input cache layout state kinds).2.memos.SoundAt input kind) := by
  induction kinds generalizing state with
  | nil => exact .inl ⟨rfl, hs, by simp⟩
  | cons kind kinds ih =>
    obtain ⟨hk, hn⟩ := List.nodup_cons.mp hn
    rcases ofKind_cases cache layout kind hs with
      ⟨hf, hs', hl⟩ | ⟨hf, hstop, hnotices, hkept⟩
    · have hlooks : (ofKinds input cache layout (ofKind input cache layout state kind).2
          kinds).2.memos.looks input kind = false := by
        rwa [Memos.looks_congr (ofKinds_other cache layout hk _)]
      rw [ofKinds_ok cache layout hf]
      rcases ih hn hs' with ⟨hr, hsound, hnone⟩ | ⟨hr, hstop, ⟨other, hm, hnotices⟩, hkept⟩
      · refine .inl ⟨by simp [hr, Except.map], hsound, ?_⟩
        simp only [List.mem_cons, forall_eq_or_imp]
        exact ⟨hlooks, hnone⟩
      · refine .inr ⟨by simp [hr, Except.map], ?_, ⟨other, List.mem_cons_of_mem _ hm, ?_⟩, hkept⟩
        · exact fun h => hstop (by rw [ofKind_stop cache layout (hs kind) hf, h]; rfl)
        · have hne : kind ≠ other := (ne_of_mem_of_not_mem hm hk).symm
          rwa [← Memos.notices_congr (ofKind_other cache layout state hne)]
    · rw [ofKinds_error cache layout hf]
      exact .inr ⟨rfl, hstop, ⟨kind, by simp, hnotices⟩, hkept⟩

/-- A run that was told to stop before it started fails if some generator notices. -/
theorem ofKinds_before {kinds : List GeneratorKind} (hn : kinds.Nodup) {state : RunState}
    (hs : state.memos.Sound input) (hstop : state.stop = .after 0)
    (hnotices : ∃ kind ∈ kinds, state.memos.notices input kind = true) :
    (ofKinds input cache layout state kinds).1 = .error .cancelled := by
  induction kinds generalizing state with
  | nil => simp at hnotices
  | cons kind kinds ih =>
    obtain ⟨hk, hn⟩ := List.nodup_cons.mp hn
    obtain ⟨other, hm, hother⟩ := hnotices
    have hf := ofKind_before cache layout (hs kind) hstop
    cases h : state.memos.notices input kind with
    | true =>
      rw [h, if_pos rfl] at hf
      rw [ofKinds_error cache layout hf]
    | false =>
      rw [h, if_neg Bool.false_ne_true] at hf
      have hne : kind ≠ other := fun he => by simp [← he, h] at hother
      obtain ⟨-, hs', -⟩ | ⟨herror, -⟩ := ofKind_cases cache layout kind hs
      · have hlast : (ofKind input cache layout state kind).2.stop = .after 0 := by
          simp [ofKind_stop cache layout (hs kind) hf, hstop, Cancellation.elapse]
        have hrest := ih hn hs' hlast ⟨other, (List.mem_cons.mp hm).resolve_left hne.symm, by
          rwa [Memos.notices_congr (ofKind_other cache layout _ hne)]⟩
        simp [ofKinds_ok cache layout hf, hrest, Except.map]
      · simp [hf] at herror

end StageRun

end SourceGen
