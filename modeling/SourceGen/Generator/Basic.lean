import SourceGen.Compilation.Basic
import SourceGen.Diagnostic
import SourceGen.Failure
import SourceGen.Project.Config
/-! What a generator is: it collects units of work and emits files for each of them. -/

namespace SourceGen

structure GeneratedFile where
  hint : String
  text : String
  deriving DecidableEq, Repr

/-- Units of work, with what was found while they were collected. -/
structure Collected (Context : Type) where
  contexts : List Context
  diagnostics : List Diagnostic := []

/-- How the files of a unit of work are made. Emission looks whether it was cancelled if there is
anything to `poll` for. -/
structure Stage (Context : Type) where
  kind : GeneratorKind
  polls : Context → Bool
  units : Context → List (String × CompilationUnit)

namespace Stage

variable {Context : Type}

def files (stage : Stage Context) (layout : Layout) (context : Context) : List GeneratedFile :=
  (stage.units context).map fun (hint, unit) => ⟨hint, unit.toTree.document layout⟩

/-- Whether all lines of a unit of work can be indented. -/
def fits (stage : Stage Context) (layout : Layout) (context : Context) : Bool :=
  (stage.units context).all fun (_, unit) => layout.fits unit.toTree

def emit (stage : Stage Context) (layout : Layout) (cancelled : Bool) (context : Context) :
    Except Failure (List GeneratedFile) :=
  if cancelled && stage.polls context then .error .cancelled
  else if stage.fits layout context then .ok (stage.files layout context)
  else .error (.capacity stage.kind)

end Stage

/-- A generator that collects its units of work from a program. -/
structure CompilationStage (Context : Type) extends Stage Context where
  contexts : Compilation → List Context

def CompilationStage.collect {Context : Type} (stage : CompilationStage Context)
    (compilation : Compilation) (cancelled : Bool) : Except Failure (Collected Context) :=
  if compilation.noticesCancel cancelled then .error .cancelled
  else .ok { contexts := stage.contexts compilation }

/-- A generator that collects its units of work from additional files, those that it `reads`. What it
does not `read` from a file has no influence on them. -/
structure FileStage (Context : Type) extends Stage Context where
  reads : AdditionalFile → Bool
  Reading : Type
  decideReading : DecidableEq Reading
  read : FileInput → Reading
  assemble : List Reading → Collected Context

/-- Readings that may fail can be compared. -/
def decideReading {α : Type} [DecidableEq α] : DecidableEq (Except Diagnostic α)
  | .ok a, .ok b => decidable_of_iff (a = b) ⟨congrArg Except.ok, Except.ok.inj⟩
  | .error a, .error b => decidable_of_iff (a = b) ⟨congrArg Except.error, Except.error.inj⟩
  | .ok _, .error _ => isFalse nofun
  | .error _, .ok _ => isFalse nofun

namespace FileStage

variable {Context : Type}

def own (stage : FileStage Context) (files : List FileInput) : List FileInput :=
  files.filter fun input => stage.reads input.file

def readings (stage : FileStage Context) (files : List FileInput) : List stage.Reading :=
  (stage.own files).map stage.read

def gather (stage : FileStage Context) (files : List FileInput) : Collected Context :=
  stage.assemble (stage.readings files)

def readsAlike (stage : FileStage Context) (files others : List FileInput) : Bool :=
  let _ := stage.decideReading
  decide (stage.readings files = stage.readings others)

/-- Collects the units of work of some files. It looks in front of each file that it reads whether it
was cancelled. -/
def collect (stage : FileStage Context) (files : List FileInput) (cancelled : Bool) :
    Except Failure (Collected Context) :=
  if cancelled && !(stage.own files).isEmpty then .error .cancelled
  else .ok (stage.gather files)

end FileStage

/-- The units of work of files of which each was read or left out with a finding. -/
def Collected.ofReadings {Context : Type} (readings : List (Except Diagnostic (List Context))) :
    Collected Context where
  contexts := (readings.filterMap Except.toOption).flatten
  diagnostics := readings.filterMap fun
    | .error diagnostic => some diagnostic
    | .ok _ => none

/-- The results of a step that may fail, for all items. -/
def collectAll {α β : Type} (step : α → Except Failure β) : List α → Except Failure (List β)
  | [] => .ok []
  | item :: rest =>
    match step item with
    | .error failure => .error failure
    | .ok result => (collectAll step rest).map (result :: ·)

/-- The elements without later repetitions. -/
def distinct {α : Type} [DecidableEq α] (items : List α) : List α :=
  items.foldl (fun seen item => if item ∈ seen then seen else seen ++ [item]) []

section Grouping

variable {κ ν : Type} [DecidableEq κ]

/-- Adds a value to the group of its key; a new group comes last. -/
def insertGroup (key : κ) (value : ν) : List (κ × List ν) → List (κ × List ν)
  | [] => [(key, [value])]
  | (other, values) :: groups =>
    if other = key then (other, values ++ [value]) :: groups
    else (other, values) :: insertGroup key value groups

/-- The values by their keys, in the order of first appearance. -/
def groupByKey (entries : List (κ × ν)) : List (κ × List ν) :=
  entries.foldl (fun groups entry => insertGroup entry.1 entry.2 groups) []

end Grouping

/-- The elements in the order of a text that belongs to each; equal texts keep their order. -/
def sortByText {α : Type} (text : α → String) (items : List α) : List α :=
  items.mergeSort fun a b => decide (text a ≤ text b)

end SourceGen
