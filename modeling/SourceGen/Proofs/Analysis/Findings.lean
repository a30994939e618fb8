import SourceGen.Analysis
import SourceGen.Proofs.Collections

/-! What checking a program reports: the findings of its files, sorted by where they are. Findings of
one rule at one place stay in the order in which they were found. -/

namespace SourceGen

/-- Whether a path ends as those of generated files do. -/
def IsGeneratedPath (path : String) : Prop :=
  ".g.cs".toList <:+ path.toList

instance (path : String) : Decidable (IsGeneratedPath path) :=
  inferInstanceAs (Decidable (".g.cs".toList <:+ path.toList))

theorem SourceFile.isGenerated_eq (file : SourceFile) :
    file.isGenerated = decide (IsGeneratedPath file.path) := by
  rw [Bool.eq_iff_iff, decide_eq_true_iff, isGenerated, Text.endsWith, List.isPrefixOf_iff_prefix,
    List.reverse_prefix, IsGeneratedPath]

namespace Diagnostic

/-- Whether a finding stands in front of another one or at the same place: by path, first byte and
rule. -/
def InOrder (a b : Diagnostic) : Prop :=
  ∃ here ∈ a.location, ∃ there ∈ b.location,
    here.path < there.path ∨ here.path = there.path ∧
      (here.start < there.start ∨ here.start = there.start ∧ a.id ≤ b.id)

/-- Whether a finding of a rule starts at a byte of a file. -/
def startsAt (path : String) (start : Nat) (id : String) (finding : Diagnostic) : Bool :=
  finding.location.any (fun location => location.path == path && location.start == start) &&
    finding.id == id

/-- Whether a finding is in a file that a generator made, going by its path. -/
def isGenerated (finding : Diagnostic) : Bool :=
  finding.location.any fun location => decide (IsGeneratedPath location.path)

/-- Whether a finding is one of a rule in a file. -/
structure FoundBy (rule : Rule) (path : String) (finding : Diagnostic) : Prop where
  id_eq : finding.id = rule.id
  located : ∃ location, finding.location = some location ∧ location.path = path

end Diagnostic

open Diagnostic

namespace Analysis

section Rules

variable {compilation : Compilation} {number : Nat} {path : String} {site : Site}
  {finding : Diagnostic}

theorem checkAccessibility_foundBy (h : checkAccessibility path site = some finding) :
    finding.FoundBy .restrictedType path := by
  unfold checkAccessibility at h
  split at h
  · simp at h
  · obtain ⟨found, -, rfl⟩ := Option.map_eq_some_iff.mp h
    exact ⟨rfl, _, rfl, rfl⟩

theorem checkTask_foundBy (h : checkTask compilation number path site = some finding) :
    finding.FoundBy .valueTask path := by
  unfold checkTask at h
  split at h
  · simp only at h
    split at h
    · simp at h
    · obtain ⟨found, -, rfl⟩ := Option.map_eq_some_iff.mp h
      exact ⟨rfl, _, rfl, rfl⟩
  · simp at h

theorem checkNullForgiving_foundBy (h : checkNullForgiving path site = some finding) :
    finding.FoundBy .nullForgiving path := by
  unfold checkNullForgiving at h
  split at h
  · split at h
    · split at h
      · simp at h
      · obtain rfl := Option.some.inj h
        exact ⟨rfl, _, rfl, rfl⟩
    · simp at h
  · simp at h

theorem checkCast_foundBy (h : checkCast compilation number path site = some finding) :
    finding.FoundBy .slowCast path := by
  unfold checkCast at h
  split at h
  · split at h
    · simp at h
    · simp only at h
      split at h
      · simp at h
      · obtain rfl := Option.some.inj h
        exact ⟨rfl, _, rfl, rfl⟩
  · simp at h

/-- What is found in a node is in the file of the node. -/
theorem checkSite_located (h : checkSite compilation number path site = some finding) :
    ∃ location, finding.location = some location ∧ location.path = path := by
  unfold checkSite at h
  split at h
  · exact (checkAccessibility_foundBy h).located
  · exact (checkAccessibility_foundBy h).located
  · exact (checkAccessibility_foundBy h).located
  · exact (checkAccessibility_foundBy h).located
  · exact (checkTask_foundBy h).located
  · exact (checkNullForgiving_foundBy h).located
  · exact (checkCast_foundBy h).located
  · simp at h

end Rules

section Keys

/-- What decides the place of a finding. -/
def sortKey (finding : Diagnostic) : String ×ₗ Nat ×ₗ String :=
  toLex (pathOf finding, toLex (startOf finding, finding.id))

private theorem precedes_eq_decide (a b : Diagnostic) :
    precedes a b = decide (sortKey a ≤ sortKey b) := by
  simp only [precedes, sortKey, Prod.Lex.toLex_le_toLex]
  by_cases hp : pathOf a = pathOf b
  · by_cases hs : startOf a = startOf b <;> simp [hp, hs]
  · simp [hp]

private theorem inOrder_of_sortKey {a b : Diagnostic} {here there : Location}
    (ha : a.location = some here) (hb : b.location = some there) (h : sortKey a ≤ sortKey b) :
    a.InOrder b := by
  refine ⟨here, ha, there, hb, ?_⟩
  simpa [sortKey, Prod.Lex.toLex_le_toLex, pathOf, startOf, ha, hb] using h

private theorem startsAt_eq_decide {finding : Diagnostic} {here : Location}
    (h : finding.location = some here) (path : String) (start : Nat) (id : String) :
    finding.startsAt path start id =
      decide (sortKey finding = toLex (path, toLex (start, id))) := by
  simp [startsAt, sortKey, pathOf, startOf, h, Bool.and_assoc, Bool.beq_eq_decide_eq,
    Bool.decide_and]

end Keys

end Analysis

namespace Compilation

/-- What is found in a file, node by node in preorder. -/
def fileFindings (compilation : Compilation) (number : Nat) (file : SourceFile) :
    List Diagnostic :=
  file.root.descendants.filterMap (Analysis.checkSite compilation number file.path)

/-- What is found in the files that are not skipped, file by file. Generated files are skipped
unless they are asked for. -/
def found (compilation : Compilation) (options : GeneratorOptions) : List Diagnostic :=
  (compilation.files.mapIdx fun number file =>
    if options.analyzeGenerated = false ∧ IsGeneratedPath file.path then []
    else compilation.fileFindings number file).flatten

variable (compilation : Compilation) (options : GeneratorOptions)

/-- What checking a program reports is what is found in the files that are not skipped, sorted. -/
theorem findings_eq :
    compilation.findings options = (compilation.found options).mergeSort Analysis.precedes := by
  have hfound : compilation.found options =
      (compilation.analyzedFiles options).flatMap fun entry =>
        compilation.fileFindings entry.2 entry.1 := by
    rw [found, analyzedFiles, List.mapIdx_eq_zipIdx_map]
    -- a file that is skipped gives nothing here and is no analyzed file there
    induction compilation.files.zipIdx with
    | nil => rfl
    | cons file files ih =>
      rw [List.map_cons, List.flatten_cons, ih, List.filter_cons]
      simp only [SourceFile.isGenerated_eq]
      cases options.analyzeGenerated <;> by_cases hpath : IsGeneratedPath file.1.path <;>
        simp [hpath]
  rw [hfound]
  rfl

theorem fileFindings_located {number : Nat} {file : SourceFile} {finding : Diagnostic}
    (h : finding ∈ compilation.fileFindings number file) :
    ∃ location, finding.location = some location ∧ location.path = file.path := by
  obtain ⟨site, -, hsite⟩ := List.mem_filterMap.mp h
  exact Analysis.checkSite_located hsite

theorem found_located {finding : Diagnostic} (h : finding ∈ compilation.found options) :
    ∃ location, finding.location = some location := by
  obtain ⟨findings, hfile, hm⟩ := List.mem_flatten.mp h
  obtain ⟨number, hnumber, rfl⟩ := List.mem_mapIdx.mp hfile
  split at hm
  · simp at hm
  · obtain ⟨location, hlocation, -⟩ := compilation.fileFindings_located hm
    exact ⟨location, hlocation⟩

/-- Not to check generated files leaves out what is found in them. -/
theorem found_filter :
    compilation.found { options with analyzeGenerated := false } =
      (compilation.found { options with analyzeGenerated := true }).filter
        fun finding => !finding.isGenerated := by
  have hfile (number : Nat) (file : SourceFile) :
      (compilation.fileFindings number file).filter (fun finding => !finding.isGenerated) =
        if IsGeneratedPath file.path then [] else compilation.fileFindings number file := by
    have hsame : ∀ finding ∈ compilation.fileFindings number file,
        finding.isGenerated = decide (IsGeneratedPath file.path) := by
      intro finding hm
      obtain ⟨location, hlocation, hpath⟩ := compilation.fileFindings_located hm
      rw [Diagnostic.isGenerated, hlocation, Option.any_some, hpath]
    split
    · next hpath => simpa [hpath] using hsame
    · next hpath => simpa [hpath] using hsame
  simp only [found, List.filter_flatten, List.mapIdx_eq_zipIdx_map, List.map_map]
  refine congrArg List.flatten (List.map_congr_left fun file _ => ?_)
  simp [hfile]

/-- Checking a program that is not cancelled finds what there is in the files that are not skipped,
sorted by path, first byte and rule. Of one rule at one place the findings come file by file and node
by node. Not to check generated files leaves exactly the findings in other files, in their order. -/
theorem analyze_ordered :
    ∃ findings, compilation.analyze options false = .ok findings ∧
      findings.Perm (compilation.found options) ∧
      findings.Pairwise Diagnostic.InOrder ∧
      (∀ path start id, findings.filter (Diagnostic.startsAt path start id) =
        (compilation.found options).filter (Diagnostic.startsAt path start id)) ∧
      compilation.analyze { options with analyzeGenerated := false } false =
        (compilation.analyze { options with analyzeGenerated := true } false).map
          (List.filter fun finding => !finding.isGenerated) := by
  have hperm := List.mergeSort_perm (compilation.found options) Analysis.precedes
  rw [← findings_eq] at hperm
  have hlocated {finding : Diagnostic} (hm : finding ∈ compilation.findings options) :
      ∃ location, finding.location = some location :=
    compilation.found_located options (hperm.mem_iff.mp hm)
  refine ⟨compilation.findings options, rfl, hperm, ?_, ?_, ?_⟩
  · have hsorted := mergeSort_pairwise Analysis.sortKey Analysis.precedes_eq_decide
      (compilation.found options)
    rw [← findings_eq] at hsorted
    refine hsorted.imp_of_mem fun {a b} ha hb hab => ?_
    obtain ⟨here, ha⟩ := hlocated ha
    obtain ⟨there, hb⟩ := hlocated hb
    exact Analysis.inOrder_of_sortKey ha hb hab
  · intro path start id
    have hkey {list : List Diagnostic} (hl : ∀ finding ∈ list,
        ∃ location, finding.location = some location) :
        list.filter (Diagnostic.startsAt path start id) = list.filter fun finding =>
          decide (Analysis.sortKey finding = toLex (path, toLex (start, id))) := by
      refine List.filter_congr fun finding hm => ?_
      obtain ⟨location, hlocation⟩ := hl finding hm
      exact Analysis.startsAt_eq_decide hlocation path start id
    rw [hkey fun finding hm => hlocated hm,
      hkey fun finding hm => compilation.found_located options hm, findings_eq]
    exact filter_mergeSort_key Analysis.sortKey Analysis.precedes_eq_decide _ _
  · have hfilter := filter_mergeSort Analysis.sortKey Analysis.precedes_eq_decide
      (fun finding => !finding.isGenerated)
      (compilation.found { options with analyzeGenerated := true })
    rw [← compilation.found_filter options, ← findings_eq, ← findings_eq] at hfilter
    exact congrArg Except.ok hfilter.symm

/-- Three files that declare a public class each, the second of them a generated one. -/
theorem analyze_ordered_generated :
    let exposed (name : String) (number : Nat) : TypeSymbol :=
      let type := TypeSymbol.named .classType "App" name
      { type with info := { type.info with
        identity := some number, accessibility := .publicAccess } }
    let program := ofInput
      { assemblyName := "App"
        declarations := [("B.cs", [exposed "Second" 0]), ("A.g.cs", [exposed "Made" 1]),
          ("A.cs", [exposed "First" 2])] }
    let finding (path name : String) (stop : Nat) : Diagnostic :=
      ⟨"SH001", .info, "Type [" ++ name ++ "] should be internal or private",
        some ⟨path, 31, stop⟩⟩
    let first := finding "A.cs" "First" 36
    let made := finding "A.g.cs" "Made" 35
    let second := finding "B.cs" "Second" 37
    program.found { analyzeGenerated := true } = [second, made, first] ∧
      program.analyze { analyzeGenerated := true } false = .ok [first, made, second] ∧
      program.analyze {} false = .ok [first, second] := by
  intro exposed program finding first made second
  have hfound : program.found { analyzeGenerated := true } = [second, made, first] := by
    decide +kernel
  have hread : program.findings { analyzeGenerated := true } = [first, made, second] := by
    have hmade : Analysis.precedes second made = false := by decide +kernel
    have hfirst : Analysis.precedes made first = false := by decide +kernel
    rw [findings_eq, hfound]
    simp [List.mergeSort, List.MergeSort.Internal.splitInTwo, hmade, hfirst]
  have hon : program.analyze { analyzeGenerated := true } false = .ok [first, made, second] :=
    congrArg Except.ok hread
  obtain ⟨-, -, -, -, -, hoff⟩ := program.analyze_ordered {}
  refine ⟨hfound, hon, hoff.trans ?_⟩
  rw [hon]
  decide +kernel

end Compilation

end SourceGen
