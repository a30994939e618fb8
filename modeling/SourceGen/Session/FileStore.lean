import SourceGen.Project.Config
/-! The additional files of a session. Each is held in an input of its own under a number, and the
input of a path is kept for as long as files of that path are set. -/

namespace SourceGen

/-- The numbers of the inputs that are kept for paths. -/
abbrev PathTable := List (String × Nat)

namespace PathTable

def remove (table : PathTable) (path : String) : PathTable :=
  table.filter (·.1 ≠ path)

def insert (table : PathTable) (path : String) (number : Nat) : PathTable :=
  (path, number) :: table.remove path

end PathTable

/-- All inputs that were ever made, by their numbers, those that are in use, in the order in which
the files were given, and those that are kept for paths. -/
structure FileStore where
  inputs : List FileInput := []
  listed : Option (List Nat) := none
  byPath : PathTable := []

/-- How far the files have been taken over: the inputs that were kept for paths and are not in use
again, and those that are. -/
structure FileIntake where
  previous : PathTable
  inputs : List FileInput
  byPath : PathTable := []
  listed : List Nat := []

namespace FileIntake

/-- Takes over a file: into the input that was kept for its path, or into a new one, which gets the
given assembly name. -/
def takeOver (config : BuildConfig) (assemblyName : Option String) (intake : FileIntake)
    (file : AdditionalFile) : FileIntake :=
  let settings := config.forFile file.path
  match intake.previous.lookup file.path with
  | some number =>
    { previous := intake.previous.remove file.path
      inputs := intake.inputs.modify number fun input => { input with file, settings }
      byPath := intake.byPath.insert file.path number
      listed := intake.listed ++ [number] }
  | none =>
    let number := intake.inputs.length
    { previous := intake.previous.remove file.path
      inputs := intake.inputs ++ [⟨file, settings, assemblyName⟩]
      byPath := intake.byPath.insert file.path number
      listed := intake.listed ++ [number] }

end FileIntake

namespace FileStore

/-- The inputs in use, in the order in which the files were given, if files were set. -/
def inUse (store : FileStore) : Option (List FileInput) :=
  store.listed.map fun numbers => numbers.filterMap fun number => store.inputs[number]?

/-- Gives an assembly name to the inputs that are kept for paths. -/
def rename (store : FileStore) (name : String) : FileStore :=
  { store with
    inputs := store.byPath.foldl
      (fun inputs entry =>
        inputs.modify entry.2 fun input => { input with assemblyName := some name })
      store.inputs }

def replace (store : FileStore) (config : BuildConfig) (assemblyName : Option String)
    (files : List AdditionalFile) : FileStore :=
  let intake := files.foldl (FileIntake.takeOver config assemblyName)
    { previous := store.byPath, inputs := store.inputs }
  { inputs := intake.inputs, listed := some intake.listed, byPath := intake.byPath }

end FileStore

end SourceGen
