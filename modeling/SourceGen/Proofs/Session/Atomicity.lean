import SourceGen.Proofs.Session.Invariant
import Mathlib.Logic.ExistsUnique

/-! A run that fails leaves nothing behind that any later answer could show. -/

namespace SourceGen

namespace Session

/-- Sessions that differ only in what they keep of what generators collected, and in which a run
that is told to stop before it starts fails alike. -/
structure Twins (a b : Session) : Prop where
  same : ∃ memos, b = { a with memos }
  left : a.Sound
  right : b.Sound
  notices : a.Notices ↔ b.Notices

/-- Whether some generator would notice that a run was told to stop if nothing were kept. -/
def WouldNotice (session : Session) : Prop :=
  ∃ kind : GeneratorKind, (kind.origin.looks session.input ||
    !(kind.origin.gather session.input).contexts.isEmpty) = true

theorem wouldNotice_of_notices {session : Session} (h : session.Notices) :
    session.WouldNotice := by
  obtain ⟨kind, hk⟩ := h
  refine ⟨kind, ?_⟩
  rcases Bool.or_eq_true_iff.mp hk with hl | hc
  · simp [Memos.looks_le hl]
  · simp [hc]

/-- After a failed run everything is noticed that would be if nothing were kept. -/
theorem notices_invalidate (session : Session) :
    session.invalidate.Notices ↔ session.WouldNotice := by
  refine ⟨fun h => (wouldNotice_of_notices h : session.invalidate.WouldNotice), ?_⟩
  rintro ⟨kind, hk⟩
  refine ⟨kind, ?_⟩
  rcases Bool.or_eq_true_iff.mp hk with hl | hc
  · have hlooks := Memos.looks_of_none (session.invalidate_of_looks hl) session.input
    exact Bool.or_eq_true_iff.mpr (.inl (hlooks.trans hl))
  · exact Bool.or_eq_true_iff.mpr (.inr hc)

/-- With a program, a run that is told to stop is noticed, as the services of a program are one unit
of work in any case. -/
theorem notices_of_compilation {session : Session} (h : session.compilation.isSome = true) :
    session.Notices := by
  obtain ⟨compilation, hc⟩ := Option.isSome_iff_exists.mp h
  have hone : (GeneratorKind.service.origin.gather session.input).contexts.isEmpty = false := by
    simp only [GeneratorKind.origin, Origin.gather, input, hc]
    rfl
  exact ⟨.service, by simp [Memos.notices, hone]⟩

private theorem notices_iff {a b : Session} (hi : b.input = a.input)
    (h : ∀ kind, a.memos.looks a.input kind = b.memos.looks a.input kind) :
    a.Notices ↔ b.Notices := by
  simp only [Notices, Memos.notices, hi, h]

theorem notices_of_failed {session : Session} (hs : session.Sound) {stop : Cancellation}
    {failure : Failure} (h : (session.run stop).1 = .error failure) : session.Notices := by
  rcases run_cases hs stop with ⟨memos, hr, -⟩ | ⟨memos, -, -, hn, -⟩
  · simp [hr] at h
  · exact hn

theorem twins_setCompilation {a b : Session} (h : Twins a b) (compilation : Compilation) :
    Twins (a.setCompilation compilation) (b.setCompilation compilation) := by
  have ha := setCompilation_sound h.left compilation
  have hb := setCompilation_sound h.right compilation
  obtain ⟨memos, rfl⟩ := h.same
  have hsome (session : Session) :
      (session.setCompilation compilation).compilation.isSome = true := by
    simp only [setCompilation]
    split <;> rfl
  refine ⟨⟨memos.forgetProgram, ?_⟩, ha, hb, ?_⟩
  · simp only [setCompilation]
    split <;> rfl
  · exact iff_of_true (notices_of_compilation (hsome _)) (notices_of_compilation (hsome _))

theorem twins_setFiles {a b : Session} (h : Twins a b) (files : List AdditionalFile)
    (config : BuildConfig) : Twins (a.setFiles files config) (b.setFiles files config) := by
  have ha := setFiles_sound h.left files config
  have hb := setFiles_sound h.right files config
  obtain ⟨memos, rfl⟩ := h.same
  refine ⟨⟨memos.forgetFiles, rfl⟩, ha, hb, ?_⟩
  by_cases hc : a.compilation.isSome = true
  · exact iff_of_true (notices_of_compilation hc) (notices_of_compilation hc)
  · refine notices_iff rfl fun kind => ?_
    cases ho : kind.origin with
    | options collect => simp [Memos.looks, ho, Origin.looks]
    | program stage => simp_all [Memos.looks, Origin.looks, input, setFiles]
    | files stage =>
      apply Memos.looks_congr
      simp [setFiles, Memos.forgetFiles, ho, Origin.isFiles]

theorem twins_change {a b : Session} (h : Twins a b) (change : Change) :
    Twins (a.change change) (b.change change) := by
  cases change with
  | compilation compilation => exact twins_setCompilation h compilation
  | files files config => exact twins_setFiles h files config

/-- A session after a failed run and the session before it are twins. -/
theorem twins_of_failed {session : Session} (hs : session.Sound) {stop : Cancellation}
    {failure : Failure} (hfail : (session.run stop).1 = .error failure) :
    Twins (session.run stop).2 session := by
  rcases run_cases hs stop with ⟨memos, hr, -⟩ | ⟨memos, hr, -, hn, hinvalid⟩
  · simp [hr] at hfail
  · rw [hr]
    have hwould : session.WouldNotice := wouldNotice_of_notices hn
    refine ⟨⟨session.memos, rfl⟩, hinvalid, hs, iff_of_true ?_ hn⟩
    exact (notices_invalidate { session with memos }).mpr hwould

private theorem twins_done {a b : Session} (h : Twins a b) {stop other : Cancellation}
    {result found : RunResult} (ha : (a.run stop).1 = .ok result)
    (hb : (b.run other).1 = .ok found) :
    found = result ∧ Twins (a.run stop).2 (b.run other).2 := by
  have hleft := run_sound h.left stop
  have hright := run_sound h.right other
  rcases run_cases h.left stop with ⟨memos, hr, -, hl⟩ | ⟨memos, hr, -⟩
  · rcases run_cases h.right other with ⟨later, hr', -, hl'⟩ | ⟨later, hr', -⟩
    · obtain ⟨old, rfl⟩ := h.same
      rw [hr] at ha hleft ⊢
      rw [hr'] at hb hright ⊢
      refine ⟨(Except.ok.inj hb).symm.trans (Except.ok.inj ha), ⟨later, rfl⟩, hleft, hright, ?_⟩
      exact notices_iff rfl fun kind => (hl kind).trans (hl' kind).symm
    · simp [hr'] at hb
  · simp [hr] at ha

private theorem twins_failed {a b : Session} (h : Twins a b) {stop other : Cancellation}
    {failure found : Failure} (ha : (a.run stop).1 = .error failure)
    (hb : (b.run other).1 = .error found) :
    found = failure ∧ Twins (a.run stop).2 (b.run other).2 := by
  have hleft := run_sound h.left stop
  have hright := run_sound h.right other
  rcases run_cases h.left stop with ⟨memos, hr, -⟩ | ⟨memos, hr, -⟩
  · simp [hr] at ha
  · rcases run_cases h.right other with ⟨later, hr', -⟩ | ⟨later, hr', -⟩
    · simp [hr'] at hb
    · obtain ⟨old, rfl⟩ := h.same
      rw [hr] at ha hleft ⊢
      rw [hr'] at hb hright ⊢
      refine ⟨(Except.error.inj hb).symm.trans (Except.error.inj ha),
        ⟨{ a with memos := later }.invalidate.memos, rfl⟩, hleft, hright, ?_⟩
      exact (notices_invalidate { a with memos }).trans
        (notices_invalidate { a with memos := later }).symm

/-- Twins give the same answers to a run, and are twins after it. A twin that keeps more takes fewer
looks, so that it may have to be told to stop earlier to fail as well. -/
theorem twins_run {a b : Session} (h : Twins a b) {timing : Timing} {stop : Cancellation}
    (admits : timing.Admits stop) :
    ∃ other, timing.Admits other ∧ (b.run other).1 = (a.run stop).1 ∧
      Twins (a.run stop).2 (b.run other).2 := by
  cases ha : (a.run stop).1 with
  | ok result =>
    obtain ⟨other, found, hadmits, hb⟩ :
        ∃ other found, timing.Admits other ∧ (b.run other).1 = .ok found := by
      obtain ⟨found, hnever⟩ := run_never h.right
      cases timing with
      | never => exact ⟨.never, found, rfl, hnever⟩
      | anyTime => exact ⟨.never, found, trivial, hnever⟩
      | before =>
        cases hb : (b.run (.after 0)).1 with
        | ok found => exact ⟨.after 0, found, rfl, hb⟩
        | error failure =>
          obtain rfl : stop = .after 0 := admits
          have hn := h.notices.mpr (notices_of_failed h.right hb)
          simp [run_before h.left hn] at ha
    obtain ⟨rfl, htwins⟩ := twins_done h ha hb
    exact ⟨other, hadmits, hb, htwins⟩
  | error failure =>
    have hadmits : timing.Admits (.after 0) := by
      cases timing with
      | never =>
        obtain rfl : stop = .never := admits
        obtain ⟨result, hnever⟩ := run_never h.left
        simp [hnever] at ha
      | before => rfl
      | anyTime => trivial
    have hb := run_before h.right (h.notices.mp (notices_of_failed h.left ha))
    obtain ⟨rfl, htwins⟩ := twins_failed h ha hb
    exact ⟨.after 0, hadmits, hb, htwins⟩

theorem twins_step {a b last : Session} {operation : Operation} {answer : Answer}
    (h : Twins a b) (hstep : Step a operation answer last) :
    ∃ other, Step b operation answer other ∧ Twins last other := by
  cases hstep with
  | change change => exact ⟨_, .change b change, twins_change h change⟩
  | run admits =>
    obtain ⟨stop, hadmits, hanswer, htwins⟩ := twins_run h admits
    exact ⟨_, hanswer ▸ .run b hadmits, htwins⟩
  | analyze admits =>
    obtain ⟨memos, rfl⟩ := h.same
    exact ⟨_, .analyze _ admits, h⟩

theorem twins_steps {a b last : Session} {operations : List Operation} {answers : List Answer}
    (h : Twins a b) (hsteps : Steps a operations answers last) :
    ∃ other, Steps b operations answers other := by
  induction hsteps generalizing b with
  | nil => exact ⟨b, .nil b⟩
  | cons step _ ih =>
    obtain ⟨next, hstep, hnext⟩ := twins_step h step
    obtain ⟨other, hother⟩ := ih hnext
    exact ⟨other, .cons hstep hother⟩

theorem Twins.symm {a b : Session} (h : Twins a b) : Twins b a := by
  obtain ⟨memos, hsame⟩ := h.same
  exact ⟨⟨a.memos, by rw [hsame]⟩, h.right, h.left, h.notices.symm⟩

private theorem exists_stop {timing : Timing} (h : timing ≠ .anyTime) :
    ∃ stop, timing.Admits stop ∧ ∀ other, timing.Admits other → other = stop := by
  cases timing with
  | never => exact ⟨.never, rfl, fun _ => id⟩
  | before => exact ⟨.after 0, rfl, fun _ => id⟩
  | anyTime => exact absurd rfl h

private theorem exists_step (first : Session) {operation : Operation} (h : operation.IsTimed) :
    ∃ answer second, Step first operation answer second ∧
      ∀ answer' second', Step first operation answer' second' →
        answer' = answer ∧ second' = second := by
  cases operation with
  | change change =>
    refine ⟨_, _, .change first change, ?_⟩
    rintro _ _ ⟨⟩
    exact ⟨rfl, rfl⟩
  | run timing =>
    obtain ⟨stop, hadmits, honly⟩ := exists_stop h
    refine ⟨_, _, .run first hadmits, ?_⟩
    intro _ _ hstep
    cases hstep with
    | run admits =>
      obtain rfl := honly _ admits
      exact ⟨rfl, rfl⟩
  | analyze timing =>
    obtain ⟨stop, hadmits, honly⟩ := exists_stop h
    refine ⟨_, _, .analyze first hadmits, ?_⟩
    intro _ _ hstep
    cases hstep with
    | analyze admits =>
      obtain rfl := honly _ admits
      exact ⟨rfl, rfl⟩

/-- Operations that are told to stop at certain times, if at all, have certain answers. -/
theorem existsUnique_answers (first : Session) {operations : List Operation}
    (h : ∀ operation ∈ operations, operation.IsTimed) :
    ∃! answers, ∃ last, Steps first operations answers last := by
  induction operations generalizing first with
  | nil => exact ⟨[], ⟨first, .nil first⟩, fun answers ⟨last, hsteps⟩ => by cases hsteps; rfl⟩
  | cons operation rest ih =>
    obtain ⟨htimed, hrest⟩ := List.forall_mem_cons.mp h
    obtain ⟨answer, second, hstep, honly⟩ := exists_step first htimed
    obtain ⟨answers, ⟨last, hsteps⟩, hunique⟩ := ih second hrest
    refine ⟨answer :: answers, ⟨last, .cons hstep hsteps⟩, ?_⟩
    rintro _ ⟨last', hsteps'⟩
    cases hsteps' with
    | cons step steps =>
      obtain ⟨rfl, rfl⟩ := honly _ _ step
      rw [hunique _ ⟨_, steps⟩]

/-- Whatever is asked of a session after a failed run, it can answer exactly what it could answer if
the run had not been made. That is one answer each, unless a later run or check may be told to stop
while it works. -/
theorem failed_run_invisible {options : GeneratorOptions} {session : Session}
    (hreachable : Reachable options session) {stop : Cancellation} {failure : Failure}
    (hfail : (session.run stop).1 = .error failure) (later : List Operation) :
    (∀ answers, (∃ last, Steps (session.run stop).2 later answers last) ↔
      ∃ last, Steps session later answers last) ∧
    ((∀ operation ∈ later, operation.IsTimed) →
      ∃! answers, ∃ last, Steps session later answers last) := by
  obtain ⟨operations, earlier, hsteps⟩ := hreachable
  have htwins := twins_of_failed (hsteps.sound (sound_new options)) hfail
  refine ⟨fun answers => ⟨?_, ?_⟩, existsUnique_answers session⟩
  · rintro ⟨last, h⟩
    exact twins_steps htwins h
  · rintro ⟨last, h⟩
    exact twins_steps htwins.symm h

/-- A program is run, cancelled in between. -/
theorem failed_run_invisible_program :
    let session := Session.change { options := {} } (.compilation { assemblyName := "App" })
    (session.run (.after 0)).1 = .error .cancelled ∧
      ∃! answers, ∃ last, Steps (session.run (.after 0)).2 [.run .never] answers last := by
  intro session
  have hreachable : Reachable {} session := ⟨_, _, .cons (.change _ _) (.nil _)⟩
  have hfail : (session.run (.after 0)).1 = .error .cancelled :=
    run_before (change_sound (sound_new {}) _) (notices_of_compilation rfl)
  obtain ⟨hsame, hunique⟩ := failed_run_invisible hreachable hfail [.run .never]
  simp only [hsame]
  exact ⟨hfail, hunique (by simp [Operation.IsTimed])⟩

end Session

end SourceGen
