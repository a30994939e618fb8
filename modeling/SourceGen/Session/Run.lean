import SourceGen.Session.Cancellation
import SourceGen.Session.Memo
/-! A run of all generators, which may reuse files of an earlier one. -/

namespace SourceGen

/-- The files of units of work. -/
abbrev EmissionCache := List (WorkUnit × List GeneratedFile)

/-- A source that a run adds to the program. One without a hint of its own reports a failure. -/
structure GeneratedSource where
  generator : GeneratorKind
  hint? : Option String
  text : String
  deriving DecidableEq, Repr

namespace GeneratedSource

def ofFailure (generator : GeneratorKind) (failure : Failure) : GeneratedSource :=
  ⟨generator, none, failure.message⟩

/-- The start of the hints of sources that report failures. -/
def errorPrefix : String := "Error-"

/-- The hint under which a source is added. What tells the sources of failures apart has no meaning,
and a star stands for it. -/
def hint (source : GeneratedSource) : String :=
  source.hint?.getD (errorPrefix ++ "*.g.cs")

/-- Whether the hint is that of a source that reports a failure. -/
def isError (source : GeneratedSource) : Bool :=
  errorPrefix.toList.isPrefixOf source.hint.toList

/-- The text that decides the place of a source among those of its generator: its hint, as far as that
has a meaning. -/
def sortHint (source : GeneratedSource) : String :=
  source.hint?.getD errorPrefix

/-- The text that decides the place of a source among those that report failures. -/
def sortText (source : GeneratedSource) : String :=
  if source.hint?.isNone then source.text else ""

/-- Whether a source comes no later than another. -/
def precedes (a b : GeneratedSource) : Bool :=
  if a.generator.rank ≠ b.generator.rank then decide (a.generator.rank < b.generator.rank)
  else if a.sortHint ≠ b.sortHint then decide (a.sortHint ≤ b.sortHint)
  else decide (a.sortText ≤ b.sortText)

end GeneratedSource

/-- What became of a unit of work. -/
inductive Outcome where
  | reused (unit : WorkUnit) (files : List GeneratedFile)
  | emitted (unit : WorkUnit) (files : List GeneratedFile)
  | failed (failure : Failure)

namespace Outcome

/-- Reuses or emits the files of a unit of work. Only a run that is cancelled fails as a whole. -/
def ofUnit (cache : EmissionCache) (layout : Layout) (cancelled : Bool) (unit : WorkUnit) :
    Except Failure Outcome :=
  if cancelled then .error .cancelled
  else
    match cache.lookup unit with
    | some files => .ok (reused unit files)
    | none =>
      match unit.emit layout cancelled with
      | .ok files => .ok (emitted unit files)
      | .error .cancelled => .error .cancelled
      | .error failure => .ok (failed failure)

def isReused : Outcome → Bool
  | reused _ _ => true
  | _ => false

def isEmitted : Outcome → Bool
  | emitted _ _ => true
  | _ => false

/-- The files, or why there are none. -/
def results : Outcome → List (Except Failure GeneratedFile)
  | reused _ files => files.map .ok
  | emitted _ files => files.map .ok
  | failed failure => [.error failure]

/-- What is kept for the next run. -/
def kept? : Outcome → Option (WorkUnit × List GeneratedFile)
  | reused unit files => some (unit, files)
  | emitted unit files => some (unit, files)
  | failed _ => none

end Outcome

/-- The sources of a generator that has used some hints. A hint that is used already makes a
failure. -/
def addSources (kind : GeneratorKind) :
    List String → List (Except Failure GeneratedFile) → List GeneratedSource
  | _, [] => []
  | hints, .error failure :: rest => .ofFailure kind failure :: addSources kind hints rest
  | hints, .ok file :: rest =>
    if file.hint ∈ hints then
      .ofFailure kind (.duplicateHint kind file.hint) :: addSources kind hints rest
    else ⟨kind, some file.hint, file.text⟩ :: addSources kind (file.hint :: hints) rest

structure StageRun where
  kind : GeneratorKind
  diagnostics : List Diagnostic
  outcomes : List Outcome

/-- How far a run has come: when it is told to stop, and what generators have collected. -/
structure RunState where
  stop : Cancellation
  memos : Memos

namespace StageRun

/-- Runs a generator. If it cannot collect its units of work, a failure stands for all of them; only
a run that is cancelled fails as a whole. -/
def ofKind (input : RunInput) (cache : EmissionCache) (layout : Layout) (state : RunState)
    (kind : GeneratorKind) : Except Failure StageRun × RunState :=
  let (collected, memos) := input.recall state.memos state.stop.isDue kind
  let stop := state.stop.next
  match collected with
  | .error .cancelled => (.error .cancelled, ⟨stop, memos⟩)
  | .error failure => (.ok ⟨kind, [], [.failed failure]⟩, ⟨stop, memos⟩)
  | .ok collected =>
    let (outcomes, stop) := stop.through (Outcome.ofUnit cache layout)
      (collected.contexts.map (WorkUnit.mk kind))
    (outcomes.map fun outcomes => ⟨kind, collected.diagnostics, outcomes⟩, ⟨stop, memos⟩)

/-- Runs several generators, up to the first with which the run fails. -/
def ofKinds (input : RunInput) (cache : EmissionCache) (layout : Layout) :
    RunState → List GeneratorKind → Except Failure (List StageRun) × RunState
  | state, [] => (.ok [], state)
  | state, kind :: kinds =>
    match ofKind input cache layout state kind with
    | (.error failure, state) => (.error failure, state)
    | (.ok run, state) =>
      let (runs, last) := ofKinds input cache layout state kinds
      (runs.map (run :: ·), last)

def sources (run : StageRun) : List GeneratedSource :=
  addSources run.kind [] (run.outcomes.flatMap Outcome.results)

end StageRun

structure RunResult where
  sources : List GeneratedSource
  diagnostics : List Diagnostic
  emitted : Nat
  reused : Nat
  deriving DecidableEq, Repr

namespace RunResult

def ofStages (stages : List StageRun) : RunResult :=
  let outcomes := stages.flatMap (·.outcomes)
  { sources := (stages.flatMap StageRun.sources).mergeSort GeneratedSource.precedes
    diagnostics := stages.flatMap (·.diagnostics)
    emitted := outcomes.countP Outcome.isEmitted
    reused := outcomes.countP Outcome.isReused }

end RunResult

/-- The files that the next run may reuse: the newest first. -/
def EmissionCache.ofStages (stages : List StageRun) : EmissionCache :=
  ((stages.flatMap (·.outcomes)).filterMap Outcome.kept?).reverse

end SourceGen
