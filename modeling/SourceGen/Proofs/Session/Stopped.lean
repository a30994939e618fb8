import SourceGen.Proofs.Session.Atomicity
import SourceGen.Proofs.Session.Reuse

/-! Runs that are told to stop before they start. They look whether they were only where there is
something to do, so that one with nothing to do gives a result all the same. -/

namespace SourceGen

/-- The markers have one unit of work if they are asked for, and it takes no look to find it. -/
theorem Memos.notices_attributes (memos : Memos) (input : RunInput) :
    memos.notices input .attributes = input.markers := by
  have hl : memos.looks input .attributes = false := by
    rw [looks, Bool.and_eq_false_iff]
    exact .inr rfl
  have hone : (GeneratorKind.attributes.origin.gather input).contexts.isEmpty = !input.markers := by
    show (if input.markers then [()] else []).isEmpty = !input.markers
    cases input.markers <;> rfl
  rw [notices, hl, hone, Bool.false_or, Bool.not_not]

/-- A generator of additional files looks at each file from which it has to collect, and at each
unit of work. -/
theorem Memos.notices_files_iff {memos : Memos} {input : RunInput} {kind : GeneratorKind}
    (hk : kind.origin.isFiles = true) :
    memos.notices input kind = true ↔
      memos.valid? input kind = none ∧ input.files.getD [] ≠ [] ∨
        (kind.origin.gather input).contexts ≠ [] := by
  have hlooks : kind.origin.looks input = true ↔ input.files.getD [] ≠ [] := by
    cases ho : kind.origin with
    | files stage => cases hf : input.files <;> simp [Origin.looks, hf]
    | _ => simp [ho, Origin.isFiles] at hk
  rw [notices, looks, Bool.or_eq_true, Bool.and_eq_true, hlooks, Option.isNone_iff_eq_none]
  simp

/-- Only the markers are made neither of a program nor of files. -/
theorem GeneratorKind.eq_attributes {kind : GeneratorKind}
    (h : (kind.origin.isProgram || kind.origin.isFiles) = false) : kind = .attributes := by
  cases kind with
  | attributes => rfl
  | _ => exact absurd h (by decide)

namespace Session

variable {session : Session}

/-- Without additional files to collect from or to emit for, only the markers or a program can make
a generator notice that a run was told to stop. -/
theorem notices_cases (h : session.Notices) :
    session.options.emitMarkers = true ∨ session.compilation.isSome = true ∨
      ∃ kind : GeneratorKind, kind.origin.isFiles = true ∧
        session.memos.notices session.input kind = true := by
  obtain ⟨kind, hk⟩ := h
  by_cases hf : kind.origin.isFiles = true
  · exact .inr (.inr ⟨kind, hf, hk⟩)
  · by_cases hp : kind.origin.isProgram = true
    · refine .inr (.inl ?_)
      cases hc : session.compilation with
      | some compilation => rfl
      | none =>
        cases ho : kind.origin with
        | program stage =>
          simp [Memos.notices, Memos.looks, Origin.looks, Origin.gather, ho, input, hc] at hk
        | _ => simp [ho, Origin.isProgram] at hp
    · rw [Bool.not_eq_true] at hf hp
      obtain rfl := GeneratorKind.eq_attributes (Bool.or_eq_false_iff.mpr ⟨hp, hf⟩)
      exact .inl ((session.memos.notices_attributes session.input).symm.trans hk)

theorem run_before_iff (hs : session.Sound) :
    (session.run (.after 0)).1 = .error .cancelled ↔ session.Notices :=
  ⟨notices_of_failed hs, run_before hs⟩

/-- If no generator notices anything, none has anything to do. -/
theorem outcomes_of_not_notices (h : ¬ session.Notices) :
    ∀ stage ∈ session.stages, stage.outcomes = [] := by
  intro stage hm
  obtain ⟨kind, -, rfl⟩ := List.mem_map.mp hm
  have hnone : (kind.origin.gather session.input).contexts = [] := by
    by_contra hne
    exact h ⟨kind, by simp [Memos.notices, hne]⟩
  simp [StageRun.undisturbed, hnone]

/-- A run that is told to stop before it starts fails exactly if markers are asked for, there is a
program, or a generator of additional files has to collect from some or has a unit of work. If it
gives a result, it neither adds sources nor emits or reuses any. -/
theorem run_stopped_iff {options : GeneratorOptions} (hreachable : Reachable options session) :
    ((session.run (.after 0)).1 = .error .cancelled ↔
      session.options.emitMarkers = true ∨ session.compilation.isSome = true ∨
        ∃ kind : GeneratorKind, kind.origin.isFiles = true ∧
          (session.memos.valid? session.input kind = none ∧ session.input.files.getD [] ≠ [] ∨
            (kind.origin.gather session.input).contexts ≠ [])) ∧
    ∀ result, (session.run (.after 0)).1 = .ok result →
      result.sources = [] ∧ result.emitted = 0 ∧ result.reused = 0 := by
  have hs : session.Sound := hreachable.sound
  refine ⟨(run_before_iff hs).trans ⟨fun h => ?_, ?_⟩, ?_⟩
  · rcases notices_cases h with hm | hc | ⟨kind, hf, hk⟩
    · exact .inl hm
    · exact .inr (.inl hc)
    · exact .inr (.inr ⟨kind, hf, (Memos.notices_files_iff hf).mp hk⟩)
  · rintro (hm | hc | ⟨kind, hf, hk⟩)
    · exact ⟨.attributes, (session.memos.notices_attributes session.input).trans hm⟩
    · exact notices_of_compilation hc
    · exact ⟨kind, (Memos.notices_files_iff hf).mpr hk⟩
  · intro result hrun
    have hn : ¬ session.Notices := fun hn => by simp [run_before hs hn] at hrun
    have hnone := outcomes_of_not_notices hn
    obtain ⟨stages, hw, rfl⟩ := work_of_run hrun
    obtain rfl := work_sound hs hw
    have houtcomes : session.stages.flatMap (·.outcomes) = [] :=
      List.flatMap_eq_nil_iff.mpr hnone
    have hsources : session.stages.flatMap StageRun.sources = [] :=
      List.flatMap_eq_nil_iff.mpr fun stage hm => by
        rw [StageRun.sources, hnone stage hm]
        rfl
    simp [RunResult.ofStages, houtcomes, hsources]

/-- It is enough that a file was set from which nothing was collected yet. -/
theorem run_stopped_file :
    let session := Session.change { options := { emitMarkers := false } }
      (.files [⟨"App/Strings.resx", "<root/>"⟩] {})
    (session.run (.after 0)).1 = .error .cancelled := by
  intro session
  have hreachable : Reachable { emitMarkers := false } session :=
    ⟨_, _, .cons (.change _ _) (.nil _)⟩
  exact (run_stopped_iff hreachable).1.mpr
    (.inr (.inr ⟨.resource, rfl, .inl ⟨rfl, List.cons_ne_nil _ _⟩⟩))

/-- A file that cannot be read is reported again by a run that was told to stop before it started,
as what was found in it is kept. -/
theorem run_stopped_reports :
    ¬ ∀ (options : GeneratorOptions) (session : Session), Reachable options session →
      (session.run (.after 0)).1 = .error .cancelled := by
  intro h
  let files : Change := .files [⟨"App/Strings.resx", "<root>"⟩] {}
  let session := ((Session.change { options := { emitMarkers := false } } files).run .never).2
  have hreachable : Reachable { emitMarkers := false } session :=
    ⟨_, _, .cons (.change _ files)
      (.cons (.run _ (show Timing.never.Admits .never from rfl)) (.nil _))⟩
  have hfound : ((session.run (.after 0)).1.toOption.map (·.diagnostics.length)) = some 1 := by
    decide +kernel
  rw [h _ session hreachable] at hfound
  simp [Except.toOption] at hfound

end Session

end SourceGen
