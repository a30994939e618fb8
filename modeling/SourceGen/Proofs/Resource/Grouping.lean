import SourceGen.Proofs.Collections
import SourceGen.Proofs.Resource.CompositeFormat
import SourceGen.Resource.Entry

/-! Resource files merged into classes. Nothing is lost and nothing is added: each data element of a
file gives one value, to the entry of its name in the class of the file. -/

namespace SourceGen

/-- The place of a locale among others: the neutral one comes first, the others go by their
texts. -/
def Culture.place (locale : Locale) : Nat ×ₗ String :=
  toLex (if locale = neutral then 0 else 1, locale)

/-- The place of a file among others: files of one locale go by their paths. -/
def ResourceFile.place (file : ResourceFile) : (Nat ×ₗ String) ×ₗ String :=
  toLex (Culture.place file.locale, file.path)

theorem Culture.precedes_eq (a b : Locale) : precedes a b = decide (place a ≤ place b) := by
  simp only [precedes, place, Prod.Lex.toLex_le_toLex]
  by_cases ha : a = neutral
  · by_cases hb : b = neutral <;> simp [ha, hb]
  · have hne : (a == neutral) = false := beq_false_of_ne ha
    by_cases hb : b = neutral <;> simp [ha, hb, hne]

theorem ResourceContext.decidesFirst_eq (a b : ResourceFile) :
    decidesFirst a b = decide (a.place ≤ b.place) := by
  have hplace (a b : Locale) : Culture.place a = Culture.place b ↔ a = b :=
    ⟨fun h => congrArg Prod.snd h, congrArg _⟩
  simp only [decidesFirst, ResourceFile.place, Prod.Lex.toLex_le_toLex, hplace]
  by_cases h : a.locale = b.locale
  · simp [h]
  · have hle : Culture.place a.locale ≤ Culture.place b.locale ↔
        Culture.place a.locale < Culture.place b.locale :=
      ⟨fun hle => lt_of_le_of_ne hle (mt (hplace _ _).mp h), le_of_lt⟩
    simp [h, Culture.precedes_eq, hle]

/-- A value with the class and the name that it belongs to. -/
abbrev NamedValue := ResourceKey × String × ResourceValue

/-- The values in a file, one for each data element. -/
def ResourceFile.values (file : ResourceFile) : List NamedValue :=
  file.data.map fun data => (file.key, data.name, ⟨file.locale, data.value⟩)

/-- The values in a class. -/
def ResourceContext.values (context : ResourceContext) : List NamedValue :=
  context.entries.flatMap fun entry =>
    entry.values.map fun value => (context.key, entry.name, value)

/-- Whether an entry is made of the data elements of its name in the files of a class. Type and
comment are those of the first of them, going by the places of the files and then by the order in a
file. The entry takes the arguments that the holes of its first value take, if that is a composite
format. -/
structure ResourceEntry.MergedFrom (files : List ResourceFile) (key : ResourceKey)
    (entry : ResourceEntry) : Prop where
  values_ordered : entry.values.Pairwise fun a b => Culture.place a.locale ≤ Culture.place b.locale
  leading : ∃ file ∈ files, file.key = key ∧
    (∃ data, file.data.find? (·.name = entry.name) = some data ∧
      entry.typeName = data.typeName ∧ entry.comment = data.comment) ∧
    ∀ other ∈ files, other.key = key → (∃ data ∈ other.data, data.name = entry.name) →
      file.place ≤ other.place
  arguments : ∀ locale value parts, entry.values.head? = some ⟨locale, some value⟩ → value ≠ "" →
    CompositeFormat.Composite value.toList parts →
    CompositeFormat.TakesArguments parts entry.formatArguments
  no_arguments : (∀ locale value parts, entry.values.head? = some ⟨locale, some value⟩ →
    value ≠ "" → ¬ CompositeFormat.Composite value.toList parts) → entry.formatArguments = 0

/-- Whether classes hold the data of files: each class once, in it each name once and in order, and
all values where they belong. -/
structure ResourceContext.Hold (files : List ResourceFile) (contexts : List ResourceContext) :
    Prop where
  keys_distinct : (contexts.map (·.key)).Nodup
  entries_nonempty : ∀ context ∈ contexts, context.entries ≠ []
  names_increasing : ∀ context ∈ contexts, context.entries.Pairwise (·.name < ·.name)
  values_kept : (contexts.flatMap values).Perm (files.flatMap ResourceFile.values)
  entries_merged : ∀ context ∈ contexts, ∀ entry ∈ context.entries,
    entry.MergedFrom files context.key

namespace ResourceContext

/-- Of files in order, the first that has an element with a name has the first one of all. -/
private theorem leading_element {files : List ResourceFile}
    (hs : files.Pairwise fun a b => a.place ≤ b.place) {name : String}
    {first : Locale × ResourceData} (h : (valuesOf name (elements files)).head? = some first) :
    ∃ file ∈ files, file.data.find? (·.name = name) = some first.2 ∧
      ∀ other ∈ files, (∃ data ∈ other.data, data.name = name) → file.place ≤ other.place := by
  induction files with
  | nil => simp [elements, valuesOf] at h
  | cons file rest ih =>
    obtain ⟨hle, hs⟩ := List.pairwise_cons.mp hs
    -- if the first file has such an element, its first one leads, and no file comes before it
    rw [elements, List.flatMap_cons, valuesOf_append,
      valuesOf_map name ResourceData.name (file.locale, ·), List.head?_append, List.head?_map,
      List.head?_filter] at h
    cases hfind : file.data.find? (·.name = name) with
    | some data =>
      rw [hfind] at h
      obtain rfl := Option.some.inj h
      refine ⟨file, by simp, hfind, fun other hm _ => ?_⟩
      rcases List.mem_cons.mp hm with rfl | hm
      · exact le_refl _
      · exact hle other hm
    | none =>
      rw [hfind] at h
      obtain ⟨found, hm, hd, hfirst⟩ := ih hs h
      refine ⟨found, by simp [hm], hd, fun other ho hnamed => ?_⟩
      obtain ⟨data, hdata, hname⟩ := hnamed
      rcases List.mem_cons.mp ho with rfl | ho
      · have := List.find?_eq_none.mp hfind data hdata
        simp [hname] at this
      · exact hfirst other ho ⟨data, hdata, hname⟩

/-- The value of an element with the name that it belongs to. -/
private def namedValue (element : String × Locale × ResourceData) : String × ResourceValue :=
  (element.1, ⟨element.2.1, element.2.2.value⟩)

private theorem ofGroup_values (name : String) (group : List (Locale × ResourceData)) :
    ((ResourceEntry.ofGroup name group).values.map (name, ·)).Perm
      ((group.map (name, ·)).map namedValue) := by
  let values := group.map fun element => (⟨element.1, element.2.value⟩ : ResourceValue)
  have h := (List.mergeSort_perm values fun a b => Culture.precedes a.locale b.locale).map (name, ·)
  rw [List.map_map] at h
  rw [List.map_map]
  exact h

private theorem mergeEntries_values (files : List ResourceFile) :
    ((mergeEntries files).flatMap fun entry => entry.values.map (entry.name, ·)).Perm
      ((elements files).map namedValue) := by
  let sorted := elements (files.mergeSort decidesFirst)
  have hentries : (mergeEntries files).flatMap (fun entry => entry.values.map (entry.name, ·)) =
      (groupByKey sorted).flatMap fun group =>
        (ResourceEntry.ofGroup group.1 group.2).values.map (group.1, ·) := by
    rw [mergeEntries, List.flatMap_map]
    rfl
  have hgroups : ((groupByKey sorted).flatMap fun group =>
      (ResourceEntry.ofGroup group.1 group.2).values.map (group.1, ·)).Perm
      (sorted.map namedValue) := by
    refine (List.Perm.flatMap_left _ fun group _ => ofGroup_values group.1 group.2).trans ?_
    rw [← List.map_flatMap]
    exact (groupByKey_entries sorted).map _
  have hsorted : sorted.Perm (elements files) :=
    (List.mergeSort_perm files decidesFirst).flatMap_right _
  rw [hentries]
  exact hgroups.trans (hsorted.map _)

/-- The class of some files with one key holds the values of these files. -/
private theorem ofGroup_holds {key : ResourceKey} {files : List ResourceFile}
    (hkey : ∀ file ∈ files, file.key = key) :
    (((ofGroup key files).toList).flatMap values).Perm (files.flatMap ResourceFile.values) := by
  have hfiles : ((elements files).map namedValue).map (key, ·) =
      files.flatMap ResourceFile.values := by
    rw [elements, List.map_flatMap, List.map_flatMap]
    refine List.flatMap_congr fun file hm => ?_
    rw [ResourceFile.values, hkey file hm, List.map_map, List.map_map]
    rfl
  have hentries := (mergeEntries_values files).map (key, ·)
  rw [hfiles, List.map_flatMap] at hentries
  simp only [List.map_map] at hentries
  unfold ofGroup
  by_cases hempty : (mergeEntries files).isEmpty = true
  · simpa [List.isEmpty_iff.mp hempty] using hentries
  · have hsort := (List.mergeSort_perm (mergeEntries files) fun a b =>
      decide (a.name ≤ b.name)).flatMap_right fun entry : ResourceEntry =>
        entry.values.map fun value => (key, entry.name, value)
    simpa [hempty, values, sortByText] using hsort.trans hentries

theorem ofGroup_eq_some {key : ResourceKey} {files : List ResourceFile}
    {context : ResourceContext} (h : ofGroup key files = some context) :
    context.key = key ∧ context.entries = sortByText (·.name) (mergeEntries files) ∧
      mergeEntries files ≠ [] := by
  simp only [ofGroup] at h
  split at h
  · simp at h
  · next hempty =>
    obtain rfl := Option.some.inj h
    exact ⟨rfl, rfl, by simpa using hempty⟩

private theorem mergeEntries_names (files : List ResourceFile) :
    ((mergeEntries files).map (·.name)).Nodup := by
  rw [mergeEntries, List.map_map]
  exact groupByKey_nodup _

private theorem sorted_names (files : List ResourceFile) :
    (sortByText (·.name) (mergeEntries files)).Pairwise (·.name < ·.name) := by
  have hperm : (sortByText (·.name) (mergeEntries files)).Perm (mergeEntries files) :=
    List.mergeSort_perm _ _
  have hnodup := ((hperm.map (·.name)).nodup_iff.mpr (mergeEntries_names files))
  have hne := List.pairwise_map.mp hnodup
  exact ((sortByText_pairwise (·.name) (mergeEntries files)).and hne).imp fun h =>
    lt_of_le_of_ne h.1 h.2

private theorem argumentsOf_composite {locale : Locale} {value : String} (hne : value ≠ "")
    {parts : List FormatSegment} (h : CompositeFormat.Composite value.toList parts) :
    CompositeFormat.TakesArguments parts
      (ResourceEntry.argumentsOf (some ⟨locale, some value⟩)) := by
  have hparse : CompositeFormat.parse value = .ok parts :=
    CompositeFormat.parse_eq_ok_iff_composite.mpr h
  have hcount : ResourceEntry.argumentsOf (some ⟨locale, some value⟩) =
      CompositeFormat.minimumArgumentCount parts := by
    simp [ResourceEntry.argumentsOf, hne, hparse]
  rw [hcount]
  exact CompositeFormat.takesArguments_minimumArgumentCount parts

private theorem argumentsOf_other {first : Option ResourceValue}
    (h : ∀ locale value parts, first = some ⟨locale, some value⟩ → value ≠ "" →
      ¬ CompositeFormat.Composite value.toList parts) : ResourceEntry.argumentsOf first = 0 := by
  unfold ResourceEntry.argumentsOf
  split
  · next locale value =>
    split
    · rfl
    · next hempty =>
      have hne : value ≠ "" := by simpa using hempty
      split
      · next parts hparse =>
        have hcomposite := CompositeFormat.parse_eq_ok_iff_composite.mp hparse
        exact absurd hcomposite (h locale value parts rfl hne)
      · rfl
  · rfl

/-- A merged entry is made of the elements of its name in the files of its class. -/
private theorem mergedFrom_of_mem {files : List ResourceFile} {key : ResourceKey}
    {entry : ResourceEntry} (hm : entry ∈ mergeEntries (files.filter (·.key = key))) :
    entry.MergedFrom files key := by
  let own := files.filter (·.key = key)
  have hown {file : ResourceFile} :
      file ∈ own.mergeSort decidesFirst ↔ file ∈ files ∧ file.key = key := by
    simp [own, List.mem_mergeSort]
  obtain ⟨⟨name, group⟩, hg, rfl⟩ := List.mem_map.mp hm
  let elementsOf := valuesOf name (elements (own.mergeSort decidesFirst))
  obtain ⟨hgroup, hne⟩ : group = elementsOf ∧ group ≠ [] := mem_groupByKey.mp hg
  subst hgroup
  obtain ⟨first, hfirst⟩ : ∃ first, elementsOf.head? = some first :=
    ⟨_, List.head?_eq_some_head hne⟩
  have hsorted := mergeSort_pairwise ResourceFile.place decidesFirst_eq own
  obtain ⟨file, hfile, hdata, hleads⟩ := leading_element hsorted hfirst
  have hhead : (ResourceEntry.ofGroup name elementsOf).typeName = first.2.typeName ∧
      (ResourceEntry.ofGroup name elementsOf).comment = first.2.comment := by
    simp [ResourceEntry.ofGroup, hfirst]
  refine ⟨?_, ⟨file, (hown.mp hfile).1, (hown.mp hfile).2, ⟨first.2, hdata, hhead⟩, ?_⟩, ?_, ?_⟩
  · exact mergeSort_pairwise (fun value : ResourceValue => Culture.place value.locale)
      (fun a b => Culture.precedes_eq a.locale b.locale) _
  · exact fun other ho hk => hleads other (hown.mpr ⟨ho, hk⟩)
  · intro locale value parts hv hvalue hcomposite
    have hcount : (ResourceEntry.ofGroup name elementsOf).formatArguments =
        ResourceEntry.argumentsOf (some ⟨locale, some value⟩) :=
      congrArg ResourceEntry.argumentsOf hv
    rw [hcount]
    exact argumentsOf_composite hvalue hcomposite
  · exact argumentsOf_other

private theorem mem_groups {files : List ResourceFile} {group : ResourceKey × List ResourceFile}
    (h : group ∈ groupByKey (files.map fun file => (file.key, file))) :
    group.2 = files.filter (·.key = group.1) := by
  rw [(mem_groupByKey.mp h).1]
  exact (valuesOf_map group.1 ResourceFile.key id files).trans (List.map_id _)

private theorem keys_sublist (groups : List (ResourceKey × List ResourceFile)) :
    ((groups.filterMap fun (key, files) => ofGroup key files).map (·.key)).Sublist
      (groups.map (·.1)) := by
  induction groups with
  | nil => exact .slnil
  | cons group rest ih =>
    obtain ⟨key, files⟩ := group
    cases h : ofGroup key files with
    | none =>
      simp only [List.filterMap_cons, h, List.map_cons]
      exact ih.cons key
    | some context =>
      simp only [List.filterMap_cons, h, List.map_cons, (ofGroup_eq_some h).1]
      exact ih.cons_cons key

/-- The classes of some files, in the order of their first files. -/
def made (files : List ResourceFile) : List ResourceContext :=
  (groupByKey (files.map fun file => (file.key, file))).filterMap fun (key, files) =>
    ofGroup key files

theorem group_contexts (read : List (Except Diagnostic ResourceFile)) :
    (group read).contexts =
      sortByText (·.key.resourceName) (made (read.filterMap Except.toOption)) :=
  rfl

private theorem made_values (files : List ResourceFile) :
    ((made files).flatMap values).Perm (files.flatMap ResourceFile.values) := by
  have hgroup : ∀ group ∈ groupByKey (files.map fun file => (file.key, file)),
      (((ofGroup group.1 group.2).toList).flatMap values).Perm
        (group.2.flatMap ResourceFile.values) := by
    intro group hg
    refine ofGroup_holds fun file hm => ?_
    rw [mem_groups hg] at hm
    simpa using (List.mem_filter.mp hm).2
  have hentries := (groupByKey_entries (files.map fun file => (file.key, file))).flatMap_right
    fun entry => entry.2.values
  rw [List.flatMap_assoc, List.flatMap_map] at hentries
  simp only [List.flatMap_map] at hentries
  rw [made, List.filterMap_eq_flatMap_toList, List.flatMap_assoc]
  exact (List.Perm.flatMap_left _ hgroup).trans hentries

section Group

variable {read : List (Except Diagnostic ResourceFile)} {context : ResourceContext}

private theorem group_perm (read : List (Except Diagnostic ResourceFile)) :
    (group read).contexts.Perm (made (read.filterMap Except.toOption)) :=
  List.mergeSort_perm _ _

/-- A class is made of the files that have its key. -/
theorem entries_of_mem (hm : context ∈ (group read).contexts) :
    let own := (read.filterMap Except.toOption).filter (·.key = context.key)
    context.entries = sortByText (·.name) (mergeEntries own) ∧ mergeEntries own ≠ [] := by
  obtain ⟨group, hg, hc⟩ := List.mem_filterMap.mp ((group_perm read).mem_iff.mp hm)
  obtain ⟨hk, he, hne⟩ := ofGroup_eq_some hc
  rw [mem_groups hg, ← hk] at he hne
  exact ⟨he, hne⟩

theorem group_keys (read : List (Except Diagnostic ResourceFile)) :
    ((group read).contexts.map (·.key)).Nodup := by
  rw [((group_perm read).map (·.key)).nodup_iff]
  exact (keys_sublist _).nodup (groupByKey_nodup _)

theorem entries_ne_nil (hm : context ∈ (group read).contexts) : context.entries ≠ [] := by
  obtain ⟨he, hne⟩ := entries_of_mem hm
  intro hnil
  refine hne (List.length_eq_zero_iff.mp ?_)
  rw [← (List.mergeSort_perm _ _).length_eq, ← List.length_eq_zero_iff.mpr hnil, he, sortByText]

theorem entries_increasing (hm : context ∈ (group read).contexts) :
    context.entries.Pairwise (·.name < ·.name) := by
  rw [(entries_of_mem hm).1]
  exact sorted_names _

theorem entries_mergedFrom (hm : context ∈ (group read).contexts) {entry : ResourceEntry}
    (he : entry ∈ context.entries) :
    entry.MergedFrom (read.filterMap Except.toOption) context.key := by
  rw [(entries_of_mem hm).1, sortByText, List.mem_mergeSort] at he
  exact mergedFrom_of_mem he

/-- The classes that files are merged into hold what is in the files. -/
theorem group_holds (read : List (Except Diagnostic ResourceFile)) :
    Hold (read.filterMap Except.toOption) (group read).contexts where
  keys_distinct := group_keys read
  entries_nonempty _ hm := entries_ne_nil hm
  names_increasing _ hm := entries_increasing hm
  values_kept := ((group_perm read).flatMap_right _).trans (made_values _)
  entries_merged _ hm _ he := entries_mergedFrom hm he

/-- The files of two cultures with one name in both of them. The holes of its neutral value take two
arguments. -/
theorem group_holds_cultures :
    let key : ResourceKey := ⟨"App", "Texts", "App.Texts"⟩
    let hallo : ResourceData := ⟨"Welcome", none, none, some "Hallo \x7b2\x7d"⟩
    let hello : ResourceData := ⟨"Welcome", none, some "Start page", some "\x7b0\x7d \x7b1\x7d"⟩
    let german : ResourceFile := ⟨"App/Texts.de.resx", "App/Texts", "de", key, [hallo]⟩
    let english : ResourceFile := ⟨"App/Texts.resx", "App/Texts", "Neutral", key, [hello]⟩
    let welcome : ResourceEntry := ⟨"Welcome", none, some "Start page",
      [⟨"Neutral", hello.value⟩, ⟨"de", hallo.value⟩], 2⟩
    (group [.ok german, .ok english]).contexts = [⟨key, [welcome]⟩] ∧
      Hold [german, english] [⟨key, [welcome]⟩] := by
  intro key hallo hello german english welcome
  have hkeys : groupByKey ([german, english].map fun file => (file.key, file)) =
      [(key, [german, english])] := by decide +kernel
  have hfiles : [german, english].mergeSort decidesFirst = [english, german] := by
    have hafter : decidesFirst german english = false := by decide +kernel
    simp [List.mergeSort, List.MergeSort.Internal.splitInTwo, hafter]
  have hnames : groupByKey (elements [english, german]) =
      [("Welcome", [("Neutral", hello), ("de", hallo)])] := by decide +kernel
  have hvalues : ResourceEntry.sortValues welcome.values = welcome.values :=
    List.mergeSort_of_pairwise (by decide +kernel)
  have hentry : ResourceEntry.ofGroup "Welcome" [("Neutral", hello), ("de", hallo)] = welcome := by
    have hread : ResourceEntry.ofGroup "Welcome" [("Neutral", hello), ("de", hallo)] =
        { welcome with
          values := ResourceEntry.sortValues welcome.values
          formatArguments :=
            ResourceEntry.argumentsOf (ResourceEntry.sortValues welcome.values).head? } := rfl
    rw [hread, hvalues]
    decide +kernel
  have hentries : mergeEntries [german, english] = [welcome] := by
    rw [mergeEntries, hfiles, hnames]
    exact congrArg ([·]) hentry
  have hcontext : ofGroup key [german, english] = some ⟨key, [welcome]⟩ := by
    rw [ofGroup, hentries, sortByText, List.mergeSort_singleton]
    rfl
  have hmade : made [german, english] = [⟨key, [welcome]⟩] := by
    rw [made, hkeys]
    exact List.filterMap_cons_some hcontext
  have hcontexts : (group [.ok german, .ok english]).contexts = [⟨key, [welcome]⟩] := by
    rw [group_contexts]
    exact (congrArg _ hmade).trans (List.mergeSort_singleton _)
  exact ⟨hcontexts, hcontexts ▸ group_holds [.ok german, .ok english]⟩

end Group

end ResourceContext

end SourceGen
