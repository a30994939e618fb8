import SourceGen.Failure
/-! When a run is told to stop. -/

namespace SourceGen

/-- When a run is told to stop: never, or after some of its steps. Each step looks whether it was. To
be told within a step comes to the same as being told before it, if the step looks once more, and
else as being told after it. -/
inductive Cancellation where
  | never
  | after (steps : Nat)
  deriving DecidableEq, Repr

namespace Cancellation

/-- Told to stop from the start, or never. -/
def ofFlag (cancelled : Bool) : Cancellation :=
  if cancelled then after 0 else never

instance : Coe Bool Cancellation := ⟨ofFlag⟩

/-- Whether the run has been told to stop by now. -/
def isDue : Cancellation → Bool
  | never => false
  | after steps => steps == 0

/-- What is left after one more step. -/
def next : Cancellation → Cancellation
  | never => never
  | after steps => after (steps - 1)

/-- The results of a step for all items, up to the first that fails, and what is left then. -/
def through {α β : Type} (step : Bool → α → Except Failure β) :
    Cancellation → List α → Except Failure (List β) × Cancellation
  | stop, [] => (.ok [], stop)
  | stop, item :: rest =>
    match step stop.isDue item with
    | .error failure => (.error failure, stop.next)
    | .ok result =>
      let (results, last) := through step stop.next rest
      (results.map (result :: ·), last)

end Cancellation

end SourceGen
