import SourceGen.Session.WorkUnit
/-! What generators have collected, kept for later runs. -/

namespace SourceGen

/-- What a generator collected, and the files that there were then. -/
structure Memo (Context : Type) where
  files : List FileInput
  collected : Except Failure (Collected Context)

/-- What is kept of each generator. -/
abbrev Memos := (kind : GeneratorKind) → Option (Memo kind.Context)

namespace Memos

def empty : Memos := fun _ => none

/-- Keeps what a generator collected. -/
def record (memos : Memos) (kind : GeneratorKind) (memo : Memo kind.Context) : Memos :=
  fun other => if same : kind = other then some (same ▸ memo) else memos other

/-- Keeps nothing of the generators that collect from the program. -/
def forgetProgram (memos : Memos) : Memos :=
  fun kind => if kind.origin.isProgram then none else memos kind

/-- Keeps nothing of the generators that collect from the additional files. -/
def forgetFiles (memos : Memos) : Memos :=
  fun kind => if kind.origin.isFiles then none else memos kind

/-- What is kept of a generator, if it would find the same in the files that there are now. -/
def valid? (memos : Memos) (input : RunInput) (kind : GeneratorKind) :
    Option (Memo kind.Context) :=
  (memos kind).filter fun memo => kind.origin.readsAlike memo.files (input.files.getD [])

end Memos

/-- What a generator collects, as it is kept from earlier if it can be. What depends on the options
alone is not kept. -/
def RunInput.recall (input : RunInput) (memos : Memos) (cancelled : Bool) (kind : GeneratorKind) :
    Except Failure (Collected kind.Context) × Memos :=
  match memos.valid? input kind with
  | some memo => (memo.collected, memos)
  | none =>
    let collected := kind.origin.collect input cancelled
    if kind.origin.isProgram || kind.origin.isFiles then
      (collected, memos.record kind ⟨input.files.getD [], collected⟩)
    else (collected, memos)

end SourceGen
