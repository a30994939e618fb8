import SourceGen.Analysis
import SourceGen.Session.FileStore
import SourceGen.Session.Run
/-! Generation for a program that changes. -/

namespace SourceGen

/-- A program under work: what generators see, and what earlier runs have left for later ones. -/
structure Session where
  options : GeneratorOptions
  compilation : Option Compilation := none
  assemblyName : Option String := none
  store : FileStore := {}
  memos : Memos := .empty
  cache : EmissionCache := []

namespace Session

/-- Replaces the program. If its assembly has another name than before, files get that name. -/
def setCompilation (session : Session) (compilation : Compilation) : Session :=
  let name := compilation.assemblyName
  let replaced :=
    { session with
      compilation := some compilation
      memos := session.memos.forgetProgram }
  if session.assemblyName = some name then replaced
  else { replaced with assemblyName := some name, store := session.store.rename name }

def setFiles (session : Session) (files : List AdditionalFile) (config : BuildConfig) : Session :=
  { session with
    store := session.store.replace config session.assemblyName files
    memos := session.memos.forgetFiles }

/-- What generators collect their units of work from. -/
def input (session : Session) : RunInput :=
  ⟨session.options.emitMarkers, session.compilation, session.store.inUse⟩

/-- Sets the program and the files, as far as there are any, to what they are. -/
def invalidate (session : Session) : Session :=
  let memos :=
    if session.compilation.isSome then session.memos.forgetProgram else session.memos
  { session with memos := if session.store.listed.isSome then memos.forgetFiles else memos }

/-- Runs all generators. A run that is cancelled gives no result, and what was collected during it is
not kept. -/
def run (session : Session) (stop : Cancellation) : Except Failure RunResult × Session :=
  let (stages, state) := StageRun.ofKinds session.input session.cache session.options.layout
    ⟨stop, session.memos⟩ GeneratorKind.all
  let touched := { session with memos := state.memos }
  match stages with
  | .error failure =>
    (.error failure, if failure = .cancelled then touched.invalidate else touched)
  | .ok stages => (.ok (.ofStages stages), { touched with cache := .ofStages stages })

/-- Checks the program, if there is one. -/
def analyze (session : Session) (cancelled : Bool) : Except Failure (List Diagnostic) :=
  match session.compilation with
  | none => .ok []
  | some compilation => compilation.analyze session.options cancelled

end Session

end SourceGen
