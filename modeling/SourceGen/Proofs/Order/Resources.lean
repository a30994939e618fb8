import SourceGen.Proofs.Order.Files
import SourceGen.Proofs.Session.FileStore

/-! Resource files in other orders. The classes that are made of them are the same, but they come in
the same order only if their resources have different names: those of one name stay in the order in
which their files came. -/

namespace SourceGen

private theorem not_sublist_swap {α : Type} {items : List α} (hn : items.Nodup) {a b : α}
    (h : [a, b].Sublist items) : ¬[b, a].Sublist items := by
  intro hswap
  obtain ⟨before, after, rfl, ha, hb⟩ := List.cons_sublist_iff.mp h
  obtain ⟨front, back, happend, hb', ha'⟩ := List.cons_sublist_iff.mp hswap
  rw [List.singleton_sublist] at hb ha'
  rcases List.append_eq_append_iff.mp happend with ⟨middle, rfl, rfl⟩ | ⟨middle, rfl, rfl⟩
  · exact List.disjoint_of_nodup_append hn ha (List.mem_append_right _ ha')
  · rw [List.append_assoc] at hn
    exact List.disjoint_of_nodup_append hn hb' (List.mem_append_right _ hb)

namespace ResourceContext

private theorem made_head {file : ResourceFile} {files : List ResourceFile}
    {context : ResourceContext} (hm : context ∈ made (file :: files))
    (hk : context.key = file.key) :
    ∃ rest, made (file :: files) = context :: rest := by
  obtain ⟨values, groups, hg⟩ :=
    groupByKey_head file.key file (files.map fun file => (file.key, file))
  have hn := groupByKey_nodup ((file :: files).map fun file => (file.key, file))
  obtain ⟨group, hgroup, hc⟩ := List.mem_filterMap.mp hm
  rw [List.map_cons, hg] at hgroup hn
  have hkey : group.1 = file.key := (ofGroup_eq_some hc).1.symm.trans hk
  obtain rfl : group = (file.key, values) := List.inj_on_of_nodup_map hn hgroup (by simp) hkey
  refine ⟨groups.filterMap fun group => ofGroup group.1 group.2, ?_⟩
  rw [made, List.map_cons, hg]
  exact List.filterMap_cons_some hc

end ResourceContext

section Collection

variable (config : BuildConfig) (assemblyName : Option String)

/-- What a file adds to the resources of its program. -/
private def resourceOf? (file : AdditionalFile) : Option ResourceFile :=
  if file.isResource then
    (ResourceFile.read ⟨file, config.forFile file.path, assemblyName⟩).toOption
  else none

private theorem readings_resources (files : List AdditionalFile) :
    ((((config.inputs assemblyName files).filter (·.file.isResource)).map
      ResourceFile.read).filterMap Except.toOption) =
      files.filterMap (resourceOf? config assemblyName) := by
  rw [BuildConfig.inputs, List.filter_map, List.map_map, List.filterMap_map,
    List.filterMap_filter]
  rfl

private theorem gather_contexts (files : List AdditionalFile) :
    (resourceStage.gather (config.inputs assemblyName files)).contexts =
      sortByText (·.key.resourceName)
        (ResourceContext.made (files.filterMap (resourceOf? config assemblyName))) := by
  rw [← readings_resources, ← ResourceContext.group_contexts]
  rfl

private theorem gather_keys (files : List AdditionalFile) :
    ((resourceStage.gather (config.inputs assemblyName files)).contexts.map (·.key)).Nodup :=
  ResourceContext.group_keys _

private theorem exists_resource {files : List AdditionalFile} {context : ResourceContext}
    (hm : context ∈ (resourceStage.gather (config.inputs assemblyName files)).contexts) :
    ∃ resource ∈ files.filterMap (resourceOf? config assemblyName),
      resource.key = context.key := by
  obtain ⟨entry, he⟩ := List.exists_mem_of_ne_nil _ (ResourceContext.entries_ne_nil hm)
  obtain ⟨resource, hr, hk, -⟩ := (ResourceContext.entries_mergedFrom hm he).leading
  rw [← readings_resources]
  exact ⟨resource, hr, hk⟩

private theorem gather_perm {files others : List AdditionalFile}
    (hn : (files.map (·.path)).Nodup) (h : files.Perm others) :
    (resourceStage.gather (config.inputs assemblyName files)).contexts.Perm
      (resourceStage.gather (config.inputs assemblyName others)).contexts :=
  (resourceStage_same (h.map _) (FileInput.inputs_paths config assemblyName files ▸ hn)).contexts

private theorem gather_contexts_eq {files others : List AdditionalFile}
    (hn : (files.map (·.path)).Nodup) (h : files.Perm others)
    (hnames : ((resourceStage.gather (config.inputs assemblyName files)).contexts.map
      (·.key.resourceName)).Nodup) :
    (resourceStage.gather (config.inputs assemblyName others)).contexts =
      (resourceStage.gather (config.inputs assemblyName files)).contexts := by
  -- lists that are sorted by different names and have the same elements are equal
  have hperm := gather_perm config assemblyName hn h
  have hsorted (files : List AdditionalFile) :
      (resourceStage.gather (config.inputs assemblyName files)).contexts.Pairwise
        fun a b => a.key.resourceName ≤ b.key.resourceName := by
    rw [gather_contexts]
    exact sortByText_pairwise _ _
  refine List.Perm.eq_of_pairwise (fun a b ha hb hab hba => ?_) (hsorted others) (hsorted files)
    hperm.symm
  exact List.inj_on_of_nodup_map hnames (hperm.mem_iff.mpr ha) hb (le_antisymm hab hba)

/-- If a file of the later of two classes with one name comes first, that class is the earlier. -/
private theorem exists_swap {files : List AdditionalFile} (hn : (files.map (·.path)).Nodup)
    {a b : ResourceContext}
    (hab : [a, b].Sublist (resourceStage.gather (config.inputs assemblyName files)).contexts)
    (hname : a.key.resourceName = b.key.resourceName) :
    ∃ others, files.Perm others ∧
      [b, a].Sublist (resourceStage.gather (config.inputs assemblyName others)).contexts := by
  have hne : a ≠ b := by
    have hnodup := List.Nodup.of_map _ (gather_keys config assemblyName files)
    exact List.pairwise_iff_forall_sublist.mp hnodup hab
  have ha := hab.subset (List.mem_cons_self ..)
  have hb := hab.subset (List.mem_cons_of_mem _ (List.mem_singleton_self b))
  obtain ⟨resource, hr, hk⟩ := exists_resource config assemblyName hb
  obtain ⟨file, hf, hfile⟩ := List.mem_filterMap.mp hr
  -- with this file in front, the class `b` is made first, and sorting keeps it before `a`
  have hmoved : files.Perm (file :: files.erase file) := List.perm_cons_erase hf
  refine ⟨file :: files.erase file, hmoved, ?_⟩
  have hperm := gather_perm config assemblyName hn hmoved
  have ha := hperm.mem_iff.mp ha
  have hb := hperm.mem_iff.mp hb
  rw [gather_contexts, List.filterMap_cons_some hfile] at ha hb ⊢
  rw [sortByText, List.mem_mergeSort] at ha hb
  obtain ⟨rest, hmade⟩ := ResourceContext.made_head hb hk.symm
  rw [hmade] at ha ⊢
  have harest : a ∈ rest := (List.mem_cons.mp ha).resolve_left hne
  exact sortByText_stable _ ((List.singleton_sublist.mpr harest).cons_cons b) hname.ge

/-- Resource files in another order give the same classes, and these come in the same order as long
as no two have the same resource name. -/
theorem resourceStage_contexts_iff (files : List AdditionalFile)
    (hn : (files.map (·.path)).Nodup) :
    ∃ collected,
      resourceStage.collect (config.inputs assemblyName files) false = .ok collected ∧
      (∀ others, files.Perm others → ∃ found,
        resourceStage.collect (config.inputs assemblyName others) false = .ok found ∧
          found.contexts.Perm collected.contexts) ∧
      ((∀ others, files.Perm others → ∃ found,
        resourceStage.collect (config.inputs assemblyName others) false = .ok found ∧
          found.contexts = collected.contexts) ↔
        (collected.contexts.map (·.key.resourceName)).Nodup) := by
  refine ⟨resourceStage.gather (config.inputs assemblyName files), rfl, ?_, ?_, ?_⟩
  · exact fun others h => ⟨_, rfl, (gather_perm config assemblyName hn h).symm⟩
  · -- two classes of one name could be swapped, so there are none
    intro hsame
    rw [List.Nodup, List.pairwise_map, List.pairwise_iff_forall_sublist]
    intro a b hab hname
    obtain ⟨others, hperm, hba⟩ := exists_swap config assemblyName hn hab hname
    obtain ⟨found, hfound, heq⟩ := hsame others hperm
    obtain rfl := Except.ok.inj hfound
    rw [heq] at hba
    have hnodup := List.Nodup.of_map _ (gather_keys config assemblyName files)
    exact not_sublist_swap hnodup hab hba
  · exact fun hnames others h => ⟨_, rfl, gather_contexts_eq config assemblyName hn h hnames⟩

end Collection

/-- Two files of two classes give these in their own order, unless the resources' names are the
other way round. -/
private theorem gather_pair {config : BuildConfig} {assemblyName : Option String}
    {first second : AdditionalFile} {a b : ResourceFile}
    (ha : resourceOf? config assemblyName first = some a)
    (hb : resourceOf? config assemblyName second = some b)
    (hda : a.data.length = 1) (hdb : b.data.length = 1) (hne : a.key ≠ b.key)
    (hle : a.key.resourceName ≤ b.key.resourceName) :
    (resourceStage.gather (config.inputs assemblyName [first, second])).contexts.map (·.key) =
      [a.key, b.key] := by
  have hone {file : ResourceFile} (h : file.data.length = 1) :
      ∃ entries, ResourceContext.ofGroup file.key [file] = some ⟨file.key, entries⟩ := by
    obtain ⟨data, hd⟩ := List.length_eq_one_iff.mp h
    simp [ResourceContext.ofGroup, ResourceContext.mergeEntries, ResourceContext.elements, hd,
      groupByKey, insertGroup]
  obtain ⟨entriesA, hA⟩ := hone hda
  obtain ⟨entriesB, hB⟩ := hone hdb
  have hmade : ResourceContext.made [a, b] = [⟨a.key, entriesA⟩, ⟨b.key, entriesB⟩] := by
    simp [ResourceContext.made, groupByKey, insertGroup, hne, hA, hB]
  rw [gather_contexts, List.filterMap_cons_some ha, List.filterMap_cons_some hb, List.filterMap_nil,
    hmade, sortByText, List.mergeSort_of_pairwise (by simpa using hle)]
  rfl

/-- A file with one data element. -/
private def oneElement (path : String) : AdditionalFile :=
  ⟨path, "<root><data name=\"A\"><value>a</value></data></root>"⟩

/-- Two files of two resources give their classes in the order of the resources' names. -/
theorem resourceStage_contexts_titles :
    ∃ found, resourceStage.collect (BuildConfig.inputs {} (some "App")
        [oneElement "App/Titles.resx", oneElement "App/Strings.resx"]) false = .ok found ∧
      found.contexts.map (·.key.resourceName) = ["App.Strings", "App.Titles"] := by
  obtain ⟨collected, hc, -, hiff⟩ := resourceStage_contexts_iff {} (some "App")
    [oneElement "App/Strings.resx", oneElement "App/Titles.resx"] (by decide)
  have hkeys : collected.contexts.map (·.key) =
      [⟨"App", "Strings", "App.Strings"⟩, ⟨"App", "Titles", "App.Titles"⟩] := by
    obtain rfl := Except.ok.inj hc
    exact gather_pair
      (show resourceOf? {} _ _ = some ⟨"App/Strings.resx", "App/Strings", "Neutral",
        ⟨"App", "Strings", "App.Strings"⟩, [⟨"A", none, none, some "a"⟩]⟩ by decide +kernel)
      (show resourceOf? {} _ _ = some ⟨"App/Titles.resx", "App/Titles", "Neutral",
        ⟨"App", "Titles", "App.Titles"⟩, [⟨"A", none, none, some "a"⟩]⟩ by decide +kernel)
      rfl rfl (by decide) (by decide)
  have hnames := congrArg (List.map ResourceKey.resourceName) hkeys
  rw [List.map_map] at hnames
  obtain ⟨found, hf, he⟩ := hiff.mpr (hnames ▸ by decide) _ (.swap ..)
  exact ⟨found, hf, he ▸ hnames⟩

/-- Two files of one resource whose classes have different names give these in their own order. -/
theorem resourceStage_contexts_swapped :
    ¬ ∀ (config : BuildConfig) (assemblyName : Option String) (files others : List AdditionalFile),
      (files.map (·.path)).Nodup → files.Perm others → ∃ contexts,
        (resourceStage.collect (config.inputs assemblyName files) false).map (·.contexts) =
          .ok contexts ∧
        (resourceStage.collect (config.inputs assemblyName others) false).map (·.contexts) =
          .ok contexts := by
  intro h
  let config := BuildConfig.setForFile {} "App/Strings.de.resx"
    "build_metadata.AdditionalFiles.ClassName" "Texte"
  have hneutral : resourceOf? config (some "App") (oneElement "App/Strings.resx") =
      some ⟨"App/Strings.resx", "App/Strings", "Neutral", ⟨"App", "Strings", "App.Strings"⟩,
        [⟨"A", none, none, some "a"⟩]⟩ := by decide +kernel
  have hgerman : resourceOf? config (some "App") (oneElement "App/Strings.de.resx") =
      some ⟨"App/Strings.de.resx", "App/Strings", "de", ⟨"App", "Texte", "App.Strings"⟩,
        [⟨"A", none, none, some "a"⟩]⟩ := by decide +kernel
  obtain ⟨contexts, hfound, hchanged⟩ := h config (some "App")
    [oneElement "App/Strings.resx", oneElement "App/Strings.de.resx"]
    [oneElement "App/Strings.de.resx", oneElement "App/Strings.resx"] (by decide) (.swap ..)
  have hkeys := gather_pair hneutral hgerman rfl rfl (by decide) (le_refl _)
  have hswapped := gather_pair hgerman hneutral rfl rfl (by decide) (le_refl _)
  have hsame := congrArg (List.map (·.key)) (Except.ok.inj (hfound.trans hchanged.symm))
  exact absurd (hkeys.symm.trans (hsame.trans hswapped)) (by decide)

end SourceGen
