import SourceGen.Session.Memo

/-! What generators collect does not depend on what is kept from earlier runs, as long as that is
sound. Only being told to stop makes a difference, and only where a generator looks. -/

namespace SourceGen

namespace Origin

variable {Context : Type}

/-- What a generator collects if it is not told to stop. -/
def gather (origin : Origin Context) (input : RunInput) : Collected Context :=
  match origin with
  | options collect => collect input.markers
  | program stage =>
    match input.compilation with
    | none => { contexts := [] }
    | some compilation => { contexts := stage.contexts compilation }
  | files stage =>
    match input.files with
    | none => { contexts := [] }
    | some inputs => stage.gather inputs

/-- Whether a generator looks, while it collects, whether it was told to stop. -/
def looks (origin : Origin Context) (input : RunInput) : Bool :=
  match origin with
  | options _ => false
  | program _ => input.compilation.any fun compilation => !compilation.files.isEmpty
  | files _ => input.files.any fun inputs => !inputs.isEmpty

/-- Collecting fails only by being told to stop. -/
theorem collect_eq (origin : Origin Context) (input : RunInput) (cancelled : Bool) :
    origin.collect input cancelled =
      if cancelled && origin.looks input then .error .cancelled else .ok (origin.gather input) := by
  cases origin with
  | options found => simp [collect, looks, gather]
  | program stage =>
    cases hc : input.compilation with
    | none => simp [collect, looks, gather, hc]
    | some compilation =>
      simp [collect, looks, gather, hc, CompilationStage.collect, Compilation.noticesCancel]
  | files stage =>
    cases hf : input.files with
    | none => simp [collect, looks, gather, hf]
    | some inputs => simp [collect, looks, gather, hf]

end Origin

namespace RunInput

/-- The input with other additional files, if it has any. -/
def withFiles (input : RunInput) (files : List FileInput) : RunInput :=
  { input with files := input.files.map fun _ => files }

theorem withFiles_own (input : RunInput) : input.withFiles (input.files.getD []) = input := by
  obtain ⟨markers, compilation, files⟩ := input
  cases files <;> rfl

end RunInput

/-- What a generator finds alike in two lists of files makes it collect the same from them. -/
theorem Origin.gather_withFiles {Context : Type} (origin : Origin Context) (input : RunInput)
    (files : List FileInput) (h : origin.readsAlike files (input.files.getD []) = true) :
    origin.gather (input.withFiles files) = origin.gather input := by
  cases origin with
  | options collect => rfl
  | program stage => rfl
  | files stage =>
    cases hf : input.files with
    | none => simp [gather, RunInput.withFiles, hf]
    | some inputs =>
      have hr : stage.readings files = stage.readings inputs := by
        simpa [readsAlike, FileStage.readsAlike, hf] using h
      simp [gather, RunInput.withFiles, hf, FileStage.gather, hr]

namespace Memos

/-- Whether what is kept of a generator is what it collects from the program that there is and the
files that there were. -/
def SoundAt (memos : Memos) (input : RunInput) (kind : GeneratorKind) : Prop :=
  ∀ memo, memos kind = some memo →
    memo.collected = .ok (kind.origin.gather (input.withFiles memo.files))

/-- Whether everything that is kept is sound. -/
def Sound (memos : Memos) (input : RunInput) : Prop :=
  ∀ kind, memos.SoundAt input kind

/-- Whether a generator will look, when it has to collect, whether it was told to stop. -/
def looks (memos : Memos) (input : RunInput) (kind : GeneratorKind) : Bool :=
  (memos.valid? input kind).isNone && kind.origin.looks input

@[simp] theorem record_self (memos : Memos) (kind : GeneratorKind) (memo : Memo kind.Context) :
    memos.record kind memo kind = some memo := by
  simp [record]

theorem record_other (memos : Memos) {kind other : GeneratorKind} (memo : Memo kind.Context)
    (h : kind ≠ other) : memos.record kind memo other = memos other := by
  simp [record, h]

theorem sound_empty (input : RunInput) : Memos.empty.Sound input :=
  fun _ _ h => nomatch h

theorem valid?_collected {memos : Memos} {input : RunInput} {kind : GeneratorKind}
    {memo : Memo kind.Context} (hs : memos.SoundAt input kind)
    (h : memos.valid? input kind = some memo) :
    memo.collected = .ok (kind.origin.gather input) := by
  obtain ⟨hm, ha⟩ := Option.filter_eq_some_iff.mp h
  rw [hs memo hm, Origin.gather_withFiles _ _ _ ha]

theorem valid?_record (memos : Memos) (input : RunInput) (kind : GeneratorKind)
    (collected : Except Failure (Collected kind.Context)) :
    (memos.record kind ⟨input.files.getD [], collected⟩).valid? input kind =
      some ⟨input.files.getD [], collected⟩ := by
  have ha : kind.origin.readsAlike (input.files.getD []) (input.files.getD []) = true := by
    cases kind.origin <;> simp [Origin.readsAlike, FileStage.readsAlike]
  simp [valid?, Option.filter, ha]

end Memos

end SourceGen
