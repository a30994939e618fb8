import SourceGen.Session.Basic
/-! What is asked of a session one after the other, and what it answers. -/

namespace SourceGen

/-- A change of what a session works on. -/
inductive Change where
  | compilation (compilation : Compilation)
  | files (files : List AdditionalFile) (config : BuildConfig)

/-- What a session works on: the program and the files that were set last. -/
structure Project where
  compilation : Option Compilation := none
  files : Option (List AdditionalFile × BuildConfig) := none

namespace Project

def after (project : Project) : Change → Project
  | .compilation compilation => { project with compilation := some compilation }
  | .files files config => { project with files := some (files, config) }

def ofChanges (changes : List Change) : Project :=
  changes.foldl after {}

/-- The changes that make the project from an empty one. -/
def changes (project : Project) : List Change :=
  (project.compilation.map Change.compilation).toList ++
    (project.files.map fun (files, config) => Change.files files config).toList

def assemblyName (project : Project) : Option String :=
  project.compilation.map (·.assemblyName)

end Project

namespace Session

def change (session : Session) : Change → Session
  | .compilation compilation => session.setCompilation compilation
  | .files files config => session.setFiles files config

def configure (session : Session) (changes : List Change) : Session :=
  changes.foldl change session

end Session

/-- When a run or check may be told to stop: never, before it starts, or at any time, which may also
be too late. -/
inductive Timing where
  | never
  | before
  | anyTime
  deriving DecidableEq, Repr

/-- Whether a run may be told to stop like this. -/
def Timing.Admits : Timing → Cancellation → Prop
  | never, stop => stop = .never
  | before, stop => stop = .after 0
  | anyTime, _ => True

inductive Operation where
  | change (change : Change)
  | run (timing : Timing)
  | analyze (timing : Timing)

def Operation.change? : Operation → Option Change
  | change made => some made
  | _ => none

/-- Whether it is certain when an operation is told to stop, if it is. -/
def Operation.IsTimed : Operation → Prop
  | change _ => True
  | run timing => timing ≠ .anyTime
  | analyze timing => timing ≠ .anyTime

inductive Answer where
  | changed
  | ran (result : Except Failure RunResult)
  | analyzed (result : Except Failure (List Diagnostic))

namespace Session

/-- An operation with the answer that it may have and the session that it leaves behind. -/
inductive Step : Session → Operation → Answer → Session → Prop
  | change (session : Session) (made : Change) :
    Step session (.change made) .changed (session.change made)
  | run (session : Session) {timing : Timing} {stop : Cancellation} (admits : timing.Admits stop) :
    Step session (.run timing) (.ran (session.run stop).1) (session.run stop).2
  | analyze (session : Session) {timing : Timing} {stop : Cancellation}
      (admits : timing.Admits stop) :
    Step session (.analyze timing) (.analyzed (session.analyze stop.isDue)) session

/-- Operations one after the other, with answers that they may have. -/
inductive Steps : Session → List Operation → List Answer → Session → Prop
  | nil (session : Session) : Steps session [] [] session
  | cons {first second last : Session} {operation : Operation} {answer : Answer}
      {operations : List Operation} {answers : List Answer}
      (step : Step first operation answer second) (steps : Steps second operations answers last) :
    Steps first (operation :: operations) (answer :: answers) last

/-- A session to which some operations can lead. -/
def Reachable (options : GeneratorOptions) (session : Session) : Prop :=
  ∃ operations answers, Steps { options } operations answers session

end Session

end SourceGen
