import SourceGen.Proofs.Order.Files
import SourceGen.Proofs.Session.Sources

/-! The sources of a run none of which reports a failure: the same units of work in another order
give the same sources in the same order. -/

namespace SourceGen

open GeneratedSource

/-- If no source reports a failure, then each file of the results has a hint of its own. -/
private theorem addSources_clean {kind : GeneratorKind} {hints : List String}
    {results : List (Except Failure GeneratedFile)}
    (h : ∀ source ∈ addSources kind hints results, source.hint?.isSome) :
    ∃ files : List GeneratedFile, results = files.map Except.ok ∧ (files.map (·.hint)).Nodup ∧
      ∀ file ∈ files, file.hint ∉ hints := by
  induction results generalizing hints with
  | nil => exact ⟨[], rfl, List.nodup_nil, by simp⟩
  | cons first rest ih =>
    cases first with
    | error failure =>
      have hf := h (ofFailure kind failure) (by simp [addSources])
      simp [ofFailure] at hf
    | ok file =>
      by_cases hm : file.hint ∈ hints
      · have hf := h (ofFailure kind (.duplicateHint kind file.hint)) (by simp [addSources, hm])
        simp [ofFailure] at hf
      · have hrest : ∀ source ∈ addSources kind (file.hint :: hints) rest,
            source.hint?.isSome :=
          fun source hs => h source (by simp [addSources, hm, hs])
        obtain ⟨files, rfl, hn, hnew⟩ := ih hrest
        refine ⟨file :: files, rfl, ?_, ?_⟩
        · rw [List.map_cons, List.nodup_cons]
          refine ⟨fun hf => ?_, hn⟩
          obtain ⟨other, ho, he⟩ := List.mem_map.mp hf
          exact hnew other ho (by simp [he])
        · intro other ho
          rcases List.mem_cons.mp ho with rfl | ho
          · exact hm
          · exact fun hu => hnew other ho (List.mem_cons_of_mem _ hu)

private theorem addSources_files (kind : GeneratorKind) (hints : List String)
    {files : List GeneratedFile} (hn : (files.map (·.hint)).Nodup)
    (hnew : ∀ file ∈ files, file.hint ∉ hints) :
    addSources kind hints (files.map Except.ok) = files.map (ofFile kind) := by
  induction files generalizing hints with
  | nil => rfl
  | cons file rest ih =>
    rw [List.map_cons, List.nodup_cons] at hn
    have hrest : ∀ other ∈ rest, other.hint ∉ file.hint :: hints := by
      intro other ho hm
      rcases List.mem_cons.mp hm with he | hm
      · exact hn.1 (he ▸ List.mem_map_of_mem (f := (·.hint)) ho)
      · exact hnew other (List.mem_cons_of_mem _ ho) hm
    simp only [List.map_cons, addSources, hnew file (by simp), if_false, ih _ hn.2 hrest]
    rfl

/-- If none of its sources reports a failure, then a generator adds files with different hints. -/
private theorem StageRun.clean_files {input : RunInput} {layout : Layout} {kind : GeneratorKind}
    (hclean : ∀ source ∈ (undisturbed input [] layout kind).sources, source.hint?.isSome) :
    ∃ files : List GeneratedFile, (files.map (·.hint)).Nodup ∧
      input.results layout kind = files.map Except.ok ∧
      (undisturbed input [] layout kind).sources = files.map (ofFile kind) := by
  have hsources := StageRun.sources_eq input layout kind
  rw [hsources] at hclean
  obtain ⟨files, hfiles, hn, -⟩ := addSources_clean hclean
  refine ⟨files, hn, hfiles, ?_⟩
  rw [hsources, hfiles, addSources_files kind [] hn (by simp)]

private theorem perm_map_ok {files : List GeneratedFile}
    {results : List (Except Failure GeneratedFile)} (h : (files.map Except.ok).Perm results) :
    ∃ others, results = others.map Except.ok ∧ files.Perm others := by
  refine ⟨results.filterMap Except.toOption, ?_, ?_⟩
  · have hall : ∀ result ∈ results, ∃ file, result = Except.ok file := by
      intro result hr
      obtain ⟨file, -, rfl⟩ := List.mem_map.mp (h.mem_iff.mpr hr)
      exact ⟨file, rfl⟩
    clear h
    induction results with
    | nil => rfl
    | cons result rest ih =>
      obtain ⟨file, rfl⟩ := hall result (by simp)
      have hrest := ih fun other ho => hall other (by simp [ho])
      rw [List.filterMap_cons]
      exact congrArg (Except.ok file :: ·) hrest
  · have hf := h.filterMap Except.toOption
    rw [List.filterMap_map] at hf
    exact (List.Perm.of_eq List.filterMap_some.symm).trans hf

namespace RunInput

/-- What the generators add, one after the other. -/
private def added (input : RunInput) (layout : Layout) : List GeneratedSource :=
  GeneratorKind.all.flatMap fun kind => (StageRun.undisturbed input [] layout kind).sources

private theorem sources_eq_mergeSort (input : RunInput) (layout : Layout) :
    input.sources layout = (input.added layout).mergeSort precedes := by
  rw [RunInput.sources, added, List.flatMap_map]

private theorem stage_clean {input : RunInput} {layout : Layout}
    (hclean : ∀ source ∈ input.added layout, source.hint?.isSome) (kind : GeneratorKind) :
    ∀ source ∈ (StageRun.undisturbed input [] layout kind).sources, source.hint?.isSome :=
  fun source hs => hclean source (List.mem_flatMap.mpr ⟨kind, kind.mem_all, hs⟩)

/-- A source is one of those that its own generator adds. -/
private theorem mem_own_stage {input : RunInput} {layout : Layout} {source : GeneratedSource}
    (hclean : ∀ source ∈ input.added layout, source.hint?.isSome)
    (hs : source ∈ input.added layout) :
    source ∈ (StageRun.undisturbed input [] layout source.generator).sources := by
  obtain ⟨kind, -, hk⟩ := List.mem_flatMap.mp hs
  obtain ⟨files, -, -, hf⟩ := StageRun.clean_files (stage_clean hclean kind)
  have hm : source ∈ files.map (ofFile kind) := hf ▸ hk
  obtain ⟨file, -, rfl⟩ := List.mem_map.mp hm
  exact hk

/-- Sources that report no failure differ in what decides their places. -/
private theorem eq_of_sortKey {input : RunInput} {layout : Layout}
    (hclean : ∀ source ∈ input.added layout, source.hint?.isSome) {a b : GeneratedSource}
    (ha : a ∈ input.added layout) (hb : b ∈ input.added layout) (he : sortKey a = sortKey b) :
    a = b := by
  have hkind : a.generator = b.generator := GeneratorKind.rank_injective (congrArg Prod.fst he)
  obtain ⟨files, hn, -, hf⟩ := StageRun.clean_files (stage_clean hclean a.generator)
  have hma : a ∈ files.map (ofFile a.generator) := hf ▸ mem_own_stage hclean ha
  have hmb : b ∈ files.map (ofFile a.generator) := hf ▸ hkind ▸ mem_own_stage hclean hb
  obtain ⟨file, hfa, hea⟩ := List.mem_map.mp hma
  obtain ⟨other, hfb, heb⟩ := List.mem_map.mp hmb
  have hhint : file.hint = other.hint := by
    have hh : a.sortHint = b.sortHint := congrArg (fun key => key.2.1) he
    rwa [← hea, ← heb] at hh
  rw [← hea, ← heb, List.inj_on_of_nodup_map hn hfa hfb hhint]

/-- Whether generators collect the same from one input as from another, in any order. -/
def CollectsSame (input other : RunInput) : Prop :=
  ∀ kind : GeneratorKind, (kind.origin.gather input).Same (kind.origin.gather other)

namespace CollectsSame

variable {input other : RunInput}

theorem symm (h : input.CollectsSame other) : other.CollectsSame input :=
  fun kind => ⟨(h kind).contexts.symm, (h kind).diagnostics.symm⟩

theorem diagnostics (h : input.CollectsSame other) :
    input.diagnostics.Perm other.diagnostics :=
  List.Perm.flatMap_left _ fun kind _ => (h kind).diagnostics

/-- A generator of which no source reports a failure adds the same files from both. -/
private theorem stage_perm (h : input.CollectsSame other) {layout : Layout} {kind : GeneratorKind}
    (hclean : ∀ source ∈ (StageRun.undisturbed input [] layout kind).sources,
      source.hint?.isSome) :
    (StageRun.undisturbed input [] layout kind).sources.Perm
      (StageRun.undisturbed other [] layout kind).sources := by
  have hresults : (input.results layout kind).Perm (other.results layout kind) :=
    (h kind).contexts.flatMap_right _
  obtain ⟨files, hn, hfiles, hsources⟩ := StageRun.clean_files hclean
  obtain ⟨others, hothers, hp⟩ := perm_map_ok (hfiles ▸ hresults)
  have hn' : (others.map (·.hint)).Nodup := (hp.map _).nodup_iff.mp hn
  rw [hsources, StageRun.sources_eq, hothers, addSources_files kind [] hn' (by simp)]
  exact hp.map _

/-- If no source reports a failure, then order makes no difference. -/
theorem sources (h : input.CollectsSame other) {layout : Layout}
    (hclean : ∀ source ∈ input.sources layout, source.hint?.isSome) :
    other.sources layout = input.sources layout := by
  rw [sources_eq_mergeSort] at hclean
  have hadded : ∀ source ∈ input.added layout, source.hint?.isSome :=
    fun source hs => hclean source (List.mem_mergeSort.mpr hs)
  have hperm : (input.added layout).Perm (other.added layout) :=
    List.Perm.flatMap_left _ fun kind _ => h.stage_perm (stage_clean hadded kind)
  rw [sources_eq_mergeSort, sources_eq_mergeSort]
  exact (mergeSort_eq_of_perm sortKey (fun a _ b _ => precedes_eq a b)
    (fun a ha b hb => eq_of_sortKey hadded ha hb) hperm).symm

end CollectsSame

end RunInput

end SourceGen
