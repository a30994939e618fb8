import Mathlib.Algebra.GroupWithZero.Nat
import SourceGen.Proofs.Session.Stages

/-! The sources of a run. Each result of a unit of work has one source, in the order of the units;
the first file with a hint is kept, and the others with that hint are failures. Sorting the sources
only moves them. -/

namespace SourceGen

theorem GeneratorKind.rank_injective {a b : GeneratorKind} (h : a.rank = b.rank) : a = b := by
  have hc := congrArg GeneratorKind.ofNat h
  rwa [GeneratorKind.rank, GeneratorKind.rank, GeneratorKind.ofNat_ctorIdx,
    GeneratorKind.ofNat_ctorIdx] at hc

namespace GeneratedSource

/-- What decides the place of a source. -/
def sortKey (source : GeneratedSource) : Nat ×ₗ String ×ₗ String :=
  toLex (source.generator.rank, toLex (source.sortHint, source.sortText))

theorem precedes_eq (a b : GeneratedSource) : a.precedes b = decide (sortKey a ≤ sortKey b) := by
  simp only [precedes, sortKey, Prod.Lex.toLex_le_toLex]
  by_cases hr : a.generator.rank = b.generator.rank
  · by_cases hh : a.sortHint = b.sortHint
    · simp [hr, hh]
    · have hlt : a.sortHint < b.sortHint ↔ a.sortHint ≤ b.sortHint :=
        ⟨le_of_lt, fun hle => lt_of_le_of_ne hle hh⟩
      simp [hr, hh, hlt]
  · simp [hr]

/-- Whether a source belongs to an earlier generator than another, or to the same one and its hint
is no later. The hint of a failure counts as far as it has a meaning. -/
def InOrder (a b : GeneratedSource) : Prop :=
  a.generator.rank < b.generator.rank ∨ a.generator = b.generator ∧ a.sortHint ≤ b.sortHint

/-- The source that a generator adds for a file. -/
def ofFile (kind : GeneratorKind) (file : GeneratedFile) : GeneratedSource :=
  ⟨kind, some file.hint, file.text⟩

end GeneratedSource

open GeneratedSource

/-- The hints of the files among results. -/
def hintsOf (results : List (Except Failure GeneratedFile)) : List String :=
  results.filterMap fun
    | .ok file => some file.hint
    | .error _ => none

section AddSources

variable {kind : GeneratorKind} {hints : List String}
  {results : List (Except Failure GeneratedFile)}

theorem addSources_generator {source : GeneratedSource}
    (h : source ∈ addSources kind hints results) : source.generator = kind := by
  induction results generalizing hints with
  | nil => simp [addSources] at h
  | cons first rest ih =>
    cases first with
    | error failure =>
      rcases List.mem_cons.mp h with rfl | h
      · rfl
      · exact ih h
    | ok file =>
      by_cases hm : file.hint ∈ hints
      · rw [addSources, if_pos hm] at h
        rcases List.mem_cons.mp h with rfl | h
        · rfl
        · exact ih h
      · rw [addSources, if_neg hm] at h
        rcases List.mem_cons.mp h with rfl | h
        · rfl
        · exact ih h

end AddSources

namespace Outcome

/-- How many sources there are for a unit of work: one for each of its files, or one that reports
the failure. -/
def size : Outcome → Nat
  | reused _ files => files.length
  | emitted _ files => files.length
  | failed _ => 1

end Outcome

/-- The results of the units of work of a generator. -/
def RunInput.results (input : RunInput) (layout : Layout) (kind : GeneratorKind) :
    List (Except Failure GeneratedFile) :=
  (kind.origin.gather input).contexts.flatMap fun context =>
    (Outcome.undisturbed [] layout ⟨kind, context⟩).results

theorem StageRun.sources_eq (input : RunInput) (layout : Layout) (kind : GeneratorKind) :
    (undisturbed input [] layout kind).sources =
      addSources kind [] (input.results layout kind) := by
  simp only [sources, undisturbed, RunInput.results, List.flatMap_map]

namespace StageRun

/-- The files of the units of work in their order, or why there are none. -/
def results (stage : StageRun) : List (Except Failure GeneratedFile) :=
  stage.outcomes.flatMap Outcome.results

end StageRun

namespace Session

end Session

end SourceGen
