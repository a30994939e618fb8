import SourceGen.Proofs.Resource.Grouping
import SourceGen.Session.WorkUnit

/-! Additional files in other orders: generators collect the same units of work from them, and find
the same, in some order. -/

namespace SourceGen

/-- Whether units of work and findings are the same, in any order. -/
structure Collected.Same {Context : Type} (collected other : Collected Context) : Prop where
  contexts : collected.contexts.Perm other.contexts
  diagnostics : collected.diagnostics.Perm other.diagnostics

theorem Collected.ofReadings_same {Context : Type}
    {readings others : List (Except Diagnostic (List Context))} (h : readings.Perm others) :
    (ofReadings readings).Same (ofReadings others) :=
  ⟨(h.filterMap _).flatten, h.filterMap _⟩

theorem FileStage.readings_perm {Context : Type} (stage : FileStage Context)
    {files others : List FileInput} (h : files.Perm others) :
    (stage.readings files).Perm (stage.readings others) :=
  (h.filter _).map _

theorem endpointsStage_same {files others : List FileInput} (h : files.Perm others) :
    (endpointsStage.gather files).Same (endpointsStage.gather others) :=
  Collected.ofReadings_same ((endpointsStage.readings_perm h).map _)

theorem identityStage_same {files others : List FileInput} (h : files.Perm others) :
    (identityStage.gather files).Same (identityStage.gather others) :=
  Collected.ofReadings_same (identityStage.readings_perm h)

namespace ResourceContext

theorem mergeEntries_of_perm {files others : List ResourceFile} (h : files.Perm others)
    (hpath : ∀ a ∈ files, ∀ b ∈ files, a.path = b.path → a = b) :
    mergeEntries files = mergeEntries others := by
  have hplace : ∀ a ∈ files, ∀ b ∈ files, a.place = b.place → a = b :=
    fun a ha b hb he => hpath a ha b hb (congrArg (fun place => place.2) he)
  have hsort := mergeSort_eq_of_perm ResourceFile.place (fun a _ b _ => decidesFirst_eq a b) hplace h
  rw [mergeEntries, mergeEntries, hsort]

/-- The class and the findings of the merged entries of some files. -/
private theorem group_eq (read : List (Except Diagnostic ResourceFile)) :
    let entries := (read.filterMap Except.toOption).map fun file => (file.key, file)
    let merged := (groupByKey entries).map fun group => (group.1, mergeEntries group.2)
    (group read).contexts = sortByText (·.key.resourceName) (merged.filterMap fun (key, entries) =>
        if entries.isEmpty then none else some ⟨key, sortByText (·.name) entries⟩) ∧
    (group read).diagnostics =
      (read.filterMap fun
        | .error diagnostic => some diagnostic
        | .ok _ => none) ++
      merged.flatMap fun (_, entries) =>
        (entries.filter (·.hidesFormat)).map fun entry =>
          Rule.resourceFormatSuffix.report none [entry.name] := by
  refine ⟨?_, ?_⟩
  · rw [List.filterMap_map]
    rfl
  · rw [List.flatMap_map]
    rfl

theorem group_same {read others : List (Except Diagnostic ResourceFile)} (h : read.Perm others)
    (hpath : ∀ a ∈ read.filterMap Except.toOption, ∀ b ∈ read.filterMap Except.toOption,
      a.path = b.path → a = b) :
    (group read).Same (group others) := by
  let entriesOf (read : List (Except Diagnostic ResourceFile)) :=
    (read.filterMap Except.toOption).map fun file => (file.key, file)
  have hentries : (entriesOf read).Perm (entriesOf others) := (h.filterMap _).map _
  have hvalues (key : ResourceKey) :
      (valuesOf key (entriesOf read)).Perm (valuesOf key (entriesOf others)) :=
    hentries.filterMap _
  have hfiles {key : ResourceKey} {file : ResourceFile}
      (hm : file ∈ valuesOf key (entriesOf read)) : file ∈ read.filterMap Except.toOption := by
    obtain ⟨entry, he, hf⟩ := List.mem_filterMap.mp hm
    obtain ⟨found, hr, rfl⟩ := List.mem_map.mp he
    split at hf
    · exact Option.some.inj hf ▸ hr
    · simp at hf
  have hmerged := groupByKey_map_perm mergeEntries
    (fun key => by
      rw [← List.length_eq_zero_iff, (hvalues key).length_eq, List.length_eq_zero_iff])
    (fun key => mergeEntries_of_perm (hvalues key) fun a ha b hb =>
      hpath a (hfiles ha) b (hfiles hb))
  obtain ⟨hc, hd⟩ := group_eq read
  obtain ⟨hc', hd'⟩ := group_eq others
  refine ⟨?_, ?_⟩
  · rw [hc, hc']
    exact sortByText_perm _ (hmerged.filterMap _)
  · rw [hd, hd']
    exact (h.filterMap _).append (hmerged.flatMap_right _)

end ResourceContext

theorem ResourceFile.read_path {input : FileInput} {file : ResourceFile}
    (h : ResourceFile.read input = .ok file) : file.path = input.file.path := by
  unfold ResourceFile.read at h
  dsimp only at h
  split at h
  · simp at h
  · split at h
    · simp at h
    · obtain rfl := Except.ok.inj h
      rfl

theorem resourceStage_same {files others : List FileInput} (h : files.Perm others)
    (hn : (files.map (·.file.path)).Nodup) :
    (resourceStage.gather files).Same (resourceStage.gather others) := by
  refine ResourceContext.group_same (resourceStage.readings_perm h) ?_
  have hread : ∀ file ∈ (resourceStage.readings files).filterMap Except.toOption,
      ∃ input ∈ files, ResourceFile.read input = .ok file := by
    intro file hm
    obtain ⟨reading, hr, hf⟩ := List.mem_filterMap.mp hm
    obtain ⟨input, hi, rfl⟩ := List.mem_map.mp hr
    have hf : (ResourceFile.read input).toOption = some file := hf
    refine ⟨input, List.mem_of_mem_filter hi, ?_⟩
    cases hread : ResourceFile.read input with
    | error diagnostic =>
      rw [hread] at hf
      simp [Except.toOption] at hf
    | ok found =>
      rw [hread] at hf
      rw [Option.some.inj hf]
  intro a ha b hb he
  obtain ⟨input, hi, hra⟩ := hread a ha
  obtain ⟨input', hi', hrb⟩ := hread b hb
  have hpath : input.file.path = input'.file.path := by
    rw [← ResourceFile.read_path hra, ← ResourceFile.read_path hrb, he]
  obtain rfl := List.inj_on_of_nodup_map hn hi hi' hpath
  exact Except.ok.inj (hra.symm.trans hrb)

end SourceGen
