import SourceGen.Generator.Basic
import Mathlib.Data.List.Forall2
import Mathlib.Data.List.Induction
import Mathlib.Data.List.Nodup
import Mathlib.Data.List.Perm.Basic
import Mathlib.Data.String.Basic
import Mathlib.Data.Prod.Lex

/-! Lists whose order does not matter: what becomes of them when they are sorted by keys, grouped by
keys, or freed of repetitions. Lists whose items are read one by one. -/

namespace SourceGen

/-- A step succeeds for all items if it does for each of them. -/
theorem collectAll_eq_ok_iff {α β : Type} {step : α → Except Failure β} {items : List α}
    {results : List β} :
    collectAll step items = .ok results ↔
      List.Forall₂ (fun item result => step item = .ok result) items results := by
  induction items generalizing results with
  | nil => simp [collectAll, eq_comm]
  | cons item rest ih =>
    rw [collectAll, List.forall₂_cons_left_iff]
    cases hitem : step item with
    | error failure => simp
    | ok result =>
      simp only [← ih, Except.ok.injEq, exists_and_left, exists_eq_left']
      cases collectAll step rest <;> simp [Except.map, eq_comm]

section Lookup

variable {κ ν : Type} [BEq κ] [LawfulBEq κ]

theorem lookup_of_mem {entries : List (κ × ν)} {key : κ} {value : ν}
    (hn : (entries.map (·.1)).Nodup) (hm : (key, value) ∈ entries) :
    entries.lookup key = some value := by
  induction entries with
  | nil => simp at hm
  | cons entry rest ih =>
    rw [List.map_cons, List.nodup_cons] at hn
    rcases List.mem_cons.mp hm with rfl | hm
    · simp
    · have hne : key ≠ entry.1 := fun h => hn.1 (h ▸ List.mem_map_of_mem (f := (·.1)) hm)
      rw [List.lookup_cons, beq_false_of_ne hne]
      exact ih hn.2 hm

theorem mem_of_lookup {entries : List (κ × ν)} {key : κ} {value : ν}
    (h : entries.lookup key = some value) : (key, value) ∈ entries := by
  obtain ⟨before, after, rfl, -⟩ := List.lookup_eq_some_iff.mp h
  simp

end Lookup

section SortedByKeys

variable {α κ : Type} [LinearOrder κ] (key : α → κ) {le : α → α → Bool}
  (hle : ∀ a b, le a b = decide (key a ≤ key b))
include hle

private theorem trans_of_key (a b c : α) (hab : le a b = true) (hbc : le b c = true) :
    le a c = true := by
  rw [hle, decide_eq_true_eq] at *
  exact le_trans hab hbc

private theorem total_of_key (a b : α) : (le a b || le b a) = true := by
  simpa [hle] using le_total (key a) (key b)

/-- A list sorted by keys has its keys in order. -/
theorem mergeSort_pairwise (items : List α) :
    (items.mergeSort le).Pairwise fun a b => key a ≤ key b :=
  (List.pairwise_mergeSort (trans_of_key key hle) (total_of_key key hle) items).imp fun {a b} hab =>
    of_decide_eq_true (hle a b ▸ hab)

/-- Elements with the same key keep their order when a list is sorted by keys. -/
theorem filter_mergeSort_key (items : List α) (k : κ) :
    (items.mergeSort le).filter (fun item => decide (key item = k)) =
      items.filter fun item => decide (key item = k) := by
  have hequal : (items.filter fun item => decide (key item = k)).Pairwise
      fun a b => le a b = true := by
    refine List.pairwise_of_forall_mem_list fun a ha b hb => ?_
    have hak : key a = k := of_decide_eq_true (List.mem_filter.mp ha).2
    have hbk : key b = k := of_decide_eq_true (List.mem_filter.mp hb).2
    simp [hle, hak, hbk]
  have hsublist := (List.sublist_mergeSort (trans_of_key key hle) (total_of_key key hle) hequal
    List.filter_sublist).filter fun item => decide (key item = k)
  rw [List.filter_filter] at hsublist
  simp only [Bool.and_self] at hsublist
  exact (hsublist.eq_of_length ((List.mergeSort_perm items le).filter _).length_eq.symm).symm

omit hle in
/-- A list that is sorted by keys is determined by its elements of each key. -/
theorem eq_of_filter_key {items others : List α}
    (hi : items.Pairwise fun a b => key a ≤ key b) (ho : others.Pairwise fun a b => key a ≤ key b)
    (h : ∀ k, items.filter (fun item => decide (key item = k)) =
      others.filter fun item => decide (key item = k)) :
    items = others := by
  have hmem {list more : List α} (hl : ∀ k, list.filter (fun item => decide (key item = k)) =
      more.filter fun item => decide (key item = k)) {a : α} (ha : a ∈ list) : a ∈ more := by
    have hf : a ∈ list.filter fun item => decide (key item = key a) :=
      List.mem_filter.mpr ⟨ha, decide_eq_true rfl⟩
    rw [hl] at hf
    exact List.mem_of_mem_filter hf
  induction items generalizing others with
  | nil =>
    cases others with
    | nil => rfl
    | cons b others => exact absurd (hmem (fun k => (h k).symm) (List.mem_cons_self ..)) (by simp)
  | cons a items ih =>
    cases others with
    | nil => exact absurd (hmem h (List.mem_cons_self ..)) (by simp)
    | cons b others =>
      obtain ⟨ha, hitems⟩ := List.pairwise_cons.mp hi
      obtain ⟨hb, hothers⟩ := List.pairwise_cons.mp ho
      -- neither of the two first elements can come behind the other
      have hab : key a ≤ key b := by
        rcases List.mem_cons.mp (hmem (fun k => (h k).symm) (List.mem_cons_self ..)) with rfl | hm
        · exact le_rfl
        · exact ha b hm
      have hba : key b ≤ key a := by
        rcases List.mem_cons.mp (hmem h (List.mem_cons_self ..)) with rfl | hm
        · exact le_rfl
        · exact hb a hm
      have hkey : key a = key b := le_antisymm hab hba
      have hfirst := h (key b)
      rw [List.filter_cons_of_pos (by simpa using hkey), List.filter_cons_of_pos (by simp)] at hfirst
      obtain ⟨rfl, hrest⟩ := List.cons.inj hfirst
      refine congrArg (a :: ·) (ih hitems hothers fun k => ?_)
      have hk := h k
      by_cases hak : key a = k
      · exact hak ▸ hrest
      · rwa [List.filter_cons_of_neg (by simpa using hak),
          List.filter_cons_of_neg (by simpa using hak)] at hk

/-- Sorting by keys commutes with leaving elements out. -/
theorem filter_mergeSort (p : α → Bool) (items : List α) :
    (items.mergeSort le).filter p = (items.filter p).mergeSort le := by
  refine eq_of_filter_key key ((mergeSort_pairwise key hle items).sublist List.filter_sublist)
    (mergeSort_pairwise key hle _) fun k => ?_
  calc ((items.mergeSort le).filter p).filter (fun item => decide (key item = k))
    _ = ((items.mergeSort le).filter fun item => decide (key item = k)).filter p := by
      rw [List.filter_comm]
    _ = (items.filter p).filter fun item => decide (key item = k) := by
      rw [filter_mergeSort_key key hle, List.filter_comm]
    _ = ((items.filter p).mergeSort le).filter fun item => decide (key item = k) :=
      (filter_mergeSort_key key hle _ k).symm

end SortedByKeys

/-- A list sorted by keys that tell its elements apart is the same in whichever order the elements
were. -/
theorem mergeSort_eq_of_perm {α κ : Type} [LinearOrder κ] (key : α → κ) {le : α → α → Bool}
    {items others : List α}
    (hle : ∀ a ∈ items, ∀ b ∈ items, le a b = decide (key a ≤ key b))
    (hkey : ∀ a ∈ items, ∀ b ∈ items, key a = key b → a = b) (h : items.Perm others) :
    items.mergeSort le = others.mergeSort le := by
  let byKey (a b : α) : Bool := decide (key a ≤ key b)
  have hsorted (list : List α) : (list.mergeSort byKey).Pairwise fun a b => key a ≤ key b :=
    mergeSort_pairwise key (fun _ _ => rfl) list
  have hsame {list : List α} (hl : list.Perm items) : list.mergeSort le = list.mergeSort byKey := by
    have hm := List.map_mergeSort (r := le) (s := byKey) (f := id)
      fun a ha b hb => hle a (hl.mem_iff.mp ha) b (hl.mem_iff.mp hb)
    simpa using hm
  have hperm : (items.mergeSort byKey).Perm (others.mergeSort byKey) :=
    (List.mergeSort_perm items byKey).trans (h.trans (List.mergeSort_perm others byKey).symm)
  rw [hsame (.refl _), hsame h.symm]
  refine List.Perm.eq_of_pairwise (fun a b ha hb hab hba => ?_) (hsorted items) (hsorted others)
    hperm
  have ha : a ∈ items := List.mem_mergeSort.mp ha
  have hb : b ∈ items := h.mem_iff.mpr (List.mem_mergeSort.mp hb)
  exact hkey a ha b hb (le_antisymm hab hba)

theorem sortByText_perm {α : Type} (text : α → String) {items others : List α}
    (h : items.Perm others) : (sortByText text items).Perm (sortByText text others) :=
  (List.mergeSort_perm items _).trans (h.trans (List.mergeSort_perm others _).symm)

theorem sortByText_eq {α : Type} (text : α → String) {items others : List α}
    (htext : ∀ a ∈ items, ∀ b ∈ items, text a = text b → a = b) (h : items.Perm others) :
    sortByText text items = sortByText text others :=
  mergeSort_eq_of_perm text (fun _ _ _ _ => rfl) htext h

theorem sortByText_pairwise {α : Type} (text : α → String) (items : List α) :
    (sortByText text items).Pairwise fun a b => text a ≤ text b :=
  mergeSort_pairwise text (fun _ _ => rfl) items

/-- Elements that are in order keep it. -/
theorem sortByText_stable {α : Type} (text : α → String) {items : List α} {a b : α}
    (h : [a, b].Sublist items) (hle : text a ≤ text b) :
    [a, b].Sublist (sortByText text items) := by
  refine List.pair_sublist_mergeSort (fun x y z hxy hyz => ?_) (fun x y => ?_)
    (decide_eq_true hle) h
  · exact decide_eq_true (le_trans (of_decide_eq_true hxy) (of_decide_eq_true hyz))
  · simpa using le_total (text x) (text y)

/-- Items that each belong to one of their owners, owner by owner. -/
theorem flatMap_filter_perm {α β : Type} {owns : α → β → Bool} {owners : List α} {items : List β}
    (hone : owners.Pairwise fun a b => ∀ item, owns a item = true → owns b item = false)
    (hall : ∀ item ∈ items, ∃ owner ∈ owners, owns owner item = true) :
    (owners.flatMap fun owner => items.filter (owns owner)).Perm items := by
  induction owners generalizing items with
  | nil =>
    have hnone : items = [] := List.eq_nil_iff_forall_not_mem.mpr fun item hm => by
      simpa using hall item hm
    rw [hnone]
    exact .refl _
  | cons first rest ih =>
    obtain ⟨hfirst, hrest⟩ := List.pairwise_cons.mp hone
    let left := items.filter fun item => !owns first item
    have hleft : rest.flatMap (fun owner => items.filter (owns owner)) =
        rest.flatMap fun owner => left.filter (owns owner) := by
      refine List.flatMap_congr fun owner ho => ?_
      rw [List.filter_filter]
      refine List.filter_congr fun item _ => ?_
      cases h : owns first item with
      | false => simp
      | true => simp [hfirst owner ho item h]
    rw [List.flatMap_cons, hleft]
    refine ((ih hrest fun item hm => ?_).append_left _).trans (List.filter_append_perm _ items)
    obtain ⟨hi, hn⟩ := List.mem_filter.mp hm
    obtain ⟨owner, ho, howns⟩ := hall item hi
    rcases List.mem_cons.mp ho with rfl | ho
    · simp [howns] at hn
    · exact ⟨owner, ho, howns⟩

section Distinct

variable {α : Type} [DecidableEq α]

private theorem distinct_snoc (items : List α) (item : α) :
    distinct (items ++ [item]) =
      if item ∈ distinct items then distinct items else distinct items ++ [item] := by
  rw [distinct, List.foldl_append]
  rfl

theorem mem_distinct {items : List α} {item : α} : item ∈ distinct items ↔ item ∈ items := by
  induction items using List.reverseRecOn with
  | nil => simp [distinct]
  | append_singleton items last ih =>
    rw [distinct_snoc]
    by_cases h : last ∈ distinct items
    · have hl : item = last → item ∈ items := fun he => ih.mp (he ▸ h)
      simp [h, ih]
      exact hl
    · simp [h, ih]

theorem distinct_nodup (items : List α) : (distinct items).Nodup := by
  induction items using List.reverseRecOn with
  | nil => simp [distinct]
  | append_singleton items last ih =>
    rw [distinct_snoc]
    by_cases h : last ∈ distinct items
    · simpa [h] using ih
    · rw [if_neg h]
      exact List.nodup_append'.mpr ⟨ih, List.nodup_singleton _, by simpa using h⟩

theorem distinct_perm {items others : List α} (h : items.Perm others) :
    (distinct items).Perm (distinct others) := by
  rw [List.perm_ext_iff_of_nodup (distinct_nodup items) (distinct_nodup others)]
  intro item
  rw [mem_distinct, mem_distinct, h.mem_iff]

end Distinct

section Grouping

variable {κ ν : Type} [DecidableEq κ]

/-- The values of a key. -/
def valuesOf (key : κ) (entries : List (κ × ν)) : List ν :=
  entries.filterMap fun entry => if entry.1 = key then some entry.2 else none

theorem valuesOf_append (key : κ) (entries others : List (κ × ν)) :
    valuesOf key (entries ++ others) = valuesOf key entries ++ valuesOf key others :=
  List.filterMap_append

/-- The values of a key among entries that are made of items. -/
theorem valuesOf_map {α : Type} (key : κ) (keyOf : α → κ) (valueOf : α → ν) (items : List α) :
    valuesOf key (items.map fun item => (keyOf item, valueOf item)) =
      (items.filter (keyOf · = key)).map valueOf := by
  induction items with
  | nil => rfl
  | cons first rest ih =>
    rw [List.map_cons, List.filter_cons]
    by_cases h : keyOf first = key <;> simpa [valuesOf, h] using ih

private theorem groupByKey_snoc (entries : List (κ × ν)) (entry : κ × ν) :
    groupByKey (entries ++ [entry]) = insertGroup entry.1 entry.2 (groupByKey entries) := by
  simp [groupByKey, List.foldl_append]

private theorem keys_insertGroup (key : κ) (value : ν) (groups : List (κ × List ν)) :
    (insertGroup key value groups).map (·.1) =
      if key ∈ groups.map (·.1) then groups.map (·.1) else groups.map (·.1) ++ [key] := by
  induction groups with
  | nil => rfl
  | cons group rest ih =>
    by_cases h : group.1 = key
    · simp [insertGroup, h]
    · have hne : key ≠ group.1 := fun he => h he.symm
      rw [insertGroup, if_neg h, List.map_cons, ih]
      by_cases hm : key ∈ rest.map (·.1) <;> simp_all

private theorem lookup_insertGroup (key other : κ) (value : ν) (groups : List (κ × List ν)) :
    (insertGroup key value groups).lookup other =
      if other = key then some ((groups.lookup key).getD [] ++ [value])
      else groups.lookup other := by
  induction groups with
  | nil =>
    by_cases h : other = key
    · simp [insertGroup, h]
    · simp [insertGroup, List.lookup_cons, beq_false_of_ne h, h]
  | cons group rest ih =>
    obtain ⟨first, values⟩ := group
    by_cases h : first = key
    · subst h
      by_cases ho : other = first
      · simp [insertGroup, ho]
      · simp [insertGroup, List.lookup_cons, beq_false_of_ne ho, ho]
    · rw [insertGroup, if_neg h, List.lookup_cons, ih]
      by_cases ho : other = key
      · subst ho
        simp [List.lookup_cons, beq_false_of_ne (Ne.symm h)]
      · simp [List.lookup_cons, ho]

theorem groupByKey_nodup (entries : List (κ × ν)) : ((groupByKey entries).map (·.1)).Nodup := by
  induction entries using List.reverseRecOn with
  | nil => simp [groupByKey]
  | append_singleton entries entry ih =>
    rw [groupByKey_snoc, keys_insertGroup]
    split
    · exact ih
    · next h => exact List.nodup_append'.mpr ⟨ih, List.nodup_singleton _, by simpa using h⟩

private theorem lookup_groupByKey (key : κ) (entries : List (κ × ν)) :
    (groupByKey entries).lookup key =
      if valuesOf key entries = [] then none else some (valuesOf key entries) := by
  induction entries using List.reverseRecOn with
  | nil => simp [groupByKey, valuesOf]
  | append_singleton entries entry ih =>
    rw [groupByKey_snoc, lookup_insertGroup, valuesOf_append]
    by_cases h : key = entry.1
    · subst h
      have hone : valuesOf entry.1 [entry] = [entry.2] := by simp [valuesOf]
      rw [if_pos rfl, ih, hone]
      by_cases hv : valuesOf entry.1 entries = [] <;> simp [hv]
    · have hone : valuesOf key [entry] = [] := by simp [valuesOf, Ne.symm h]
      rw [if_neg h, ih, hone, List.append_nil]

/-- The groups hold the values of each key that has some. -/
theorem mem_groupByKey {entries : List (κ × ν)} {group : κ × List ν} :
    group ∈ groupByKey entries ↔ group.2 = valuesOf group.1 entries ∧ group.2 ≠ [] := by
  have hl := lookup_groupByKey group.1 entries
  constructor
  · intro hm
    rw [lookup_of_mem (groupByKey_nodup entries) (show (group.1, group.2) ∈ _ from hm)] at hl
    split at hl
    · simp at hl
    · next h =>
      obtain hv := Option.some.inj hl
      exact ⟨hv, hv ▸ h⟩
  · rintro ⟨hv, hne⟩
    rw [if_neg (hv ▸ hne), ← hv] at hl
    exact mem_of_lookup hl

private theorem insertGroup_entries (key : κ) (value : ν) (groups : List (κ × List ν)) :
    ((insertGroup key value groups).flatMap fun group => group.2.map (group.1, ·)).Perm
      ((groups.flatMap fun group => group.2.map (group.1, ·)) ++ [(key, value)]) := by
  induction groups with
  | nil => simp [insertGroup]
  | cons group rest ih =>
    by_cases h : group.1 = key
    · rw [insertGroup, if_pos h]
      simp only [List.flatMap_cons, List.map_append, List.map_cons, List.map_nil,
        List.append_assoc, h]
      exact List.perm_append_comm.append_left _
    · rw [insertGroup, if_neg h, List.flatMap_cons, List.flatMap_cons, List.append_assoc]
      exact ih.append_left _

/-- The groups hold each entry, and nothing else. -/
theorem groupByKey_entries (entries : List (κ × ν)) :
    ((groupByKey entries).flatMap fun group => group.2.map (group.1, ·)).Perm entries := by
  induction entries using List.reverseRecOn with
  | nil => simp [groupByKey]
  | append_singleton entries entry ih =>
    rw [groupByKey_snoc]
    exact (insertGroup_entries _ _ _).trans (ih.append_right _)

/-- The group of a key holds its values; without values there is none. -/
theorem groupByKey_values (key : κ) (entries : List (κ × ν)) :
    (((groupByKey entries).filter (·.1 = key)).flatMap (·.2)).Perm (valuesOf key entries) := by
  have hgroup (group : κ × List ν) : (group.2.map (group.1, ·)).filterMap
      (fun entry => if entry.1 = key then some entry.2 else none) =
        if group.1 = key then group.2 else [] := by
    rw [List.filterMap_map]
    by_cases h : group.1 = key <;> simp [h]
  have hvalues := (groupByKey_entries entries).filterMap
    fun entry => if entry.1 = key then some entry.2 else none
  rw [List.filterMap_flatMap] at hvalues
  simp only [hgroup] at hvalues
  refine (List.Perm.of_eq ?_).trans hvalues
  induction groupByKey entries with
  | nil => rfl
  | cons group rest ih =>
    by_cases h : group.1 = key <;> simp [h, ih]

/-- The key of the first entry is that of the first group. -/
theorem groupByKey_head (key : κ) (value : ν) (entries : List (κ × ν)) :
    ∃ values groups, groupByKey ((key, value) :: entries) = (key, values) :: groups := by
  have hkeep (entries : List (κ × ν)) (values : List ν) (groups : List (κ × List ν)) :
      ∃ more others, entries.foldl (fun groups entry => insertGroup entry.1 entry.2 groups)
        ((key, values) :: groups) = (key, more) :: others := by
    induction entries generalizing values groups with
    | nil => exact ⟨values, groups, rfl⟩
    | cons entry entries ih =>
      by_cases h : key = entry.1
      · simpa [insertGroup, h] using ih (values ++ [entry.2]) groups
      · simpa [insertGroup, h] using ih values (insertGroup entry.1 entry.2 groups)
  exact hkeep entries [value] []

/-- What is made of the groups, if the same is made of the values of each key. -/
theorem groupByKey_map_perm {ρ : Type} (summary : List ν → ρ) {entries others : List (κ × ν)}
    (hempty : ∀ key, valuesOf key entries = [] ↔ valuesOf key others = [])
    (hsame : ∀ key, summary (valuesOf key entries) = summary (valuesOf key others)) :
    ((groupByKey entries).map fun group => (group.1, summary group.2)).Perm
      ((groupByKey others).map fun group => (group.1, summary group.2)) := by
  have hnodup (list : List (κ × ν)) :
      ((groupByKey list).map fun group => (group.1, summary group.2)).Nodup := by
    refine List.Nodup.of_map (·.1) ?_
    rw [List.map_map]
    exact groupByKey_nodup list
  have hmem (list : List (κ × ν)) (key : κ) (made : ρ) :
      ((key, made) ∈ (groupByKey list).map fun group => (group.1, summary group.2)) ↔
        valuesOf key list ≠ [] ∧ summary (valuesOf key list) = made := by
    rw [List.mem_map]
    constructor
    · rintro ⟨group, hg, he⟩
      obtain ⟨rfl, rfl⟩ := Prod.mk.inj he
      obtain ⟨hv, hne⟩ := mem_groupByKey.mp hg
      rw [← hv]
      exact ⟨hne, rfl⟩
    · rintro ⟨hne, rfl⟩
      exact ⟨(key, valuesOf key list), mem_groupByKey.mpr ⟨rfl, hne⟩, rfl⟩
  rw [List.perm_ext_iff_of_nodup (hnodup entries) (hnodup others)]
  rintro ⟨key, made⟩
  rw [hmem, hmem, hsame, ne_eq, ne_eq, hempty]

theorem groupByKey_perm {entries others : List (κ × ν)}
    (h : ∀ key, valuesOf key entries = valuesOf key others) :
    (groupByKey entries).Perm (groupByKey others) := by
  have hm := groupByKey_map_perm id (fun key => by rw [h key]) h
  simpa using hm

/-- The values of a key keep their order when owners of entries are moved, if all entries with that
key are those of one owner. -/
theorem valuesOf_flatMap {α : Type} {owners others : List α} {owned : α → List (κ × ν)}
    (keyOf : α → κ) (h : owners.Perm others)
    (hkey : ∀ owner ∈ owners, ∀ entry ∈ owned owner, entry.1 = keyOf owner)
    (hone : ∀ a ∈ owners, ∀ b ∈ owners, keyOf a = keyOf b → a = b) (key : κ) :
    valuesOf key (owners.flatMap owned) = valuesOf key (others.flatMap owned) := by
  have hnone {owner : α} (hm : owner ∈ owners) (hne : keyOf owner ≠ key) :
      valuesOf key (owned owner) = [] := by
    rw [valuesOf, List.filterMap_eq_nil_iff]
    intro entry he
    rw [hkey owner hm entry he, if_neg hne]
  induction h with
  | nil => rfl
  | cons owner _ ih =>
    rw [List.flatMap_cons, List.flatMap_cons, valuesOf_append, valuesOf_append,
      ih (fun a ha => hkey a (by simp [ha]))
        (fun a ha b hb => hone a (by simp [ha]) b (by simp [hb])) (fun ha => hnone (by simp [ha]))]
  | swap a b rest =>
    simp only [List.flatMap_cons, valuesOf_append, ← List.append_assoc]
    congr 1
    by_cases ha : keyOf a = key
    · by_cases hb : keyOf b = key
      · rw [hone a (by simp) b (by simp) (ha.trans hb.symm)]
      · rw [hnone (by simp) hb, List.append_nil, List.nil_append]
    · rw [hnone (by simp) ha, List.append_nil, List.nil_append]
  | trans h₁ _ ih₁ ih₂ =>
    have hm {owner : α} := h₁.mem_iff (a := owner)
    rw [ih₁ hkey hone hnone]
    exact ih₂ (fun a ha => hkey a (hm.mpr ha))
      (fun a ha b hb => hone a (hm.mpr ha) b (hm.mpr hb)) (fun ha => hnone (hm.mpr ha))

/-- The values of the key of an owner are its own if no other owner has the key. -/
theorem valuesOf_owner {α : Type} {owners : List α} {owned : α → List (κ × ν)} {keyOf : α → κ}
    (hkey : ∀ owner ∈ owners, ∀ entry ∈ owned owner, entry.1 = keyOf owner)
    (hn : (owners.map keyOf).Nodup) {owner : α} (hm : owner ∈ owners) :
    valuesOf (keyOf owner) (owners.flatMap owned) = (owned owner).map (·.2) := by
  induction owners with
  | nil => cases hm
  | cons first rest ih =>
    have hfirst := hkey first (by simp)
    have hothers := fun other ho => hkey other (List.mem_cons_of_mem first ho)
    rw [List.map_cons, List.nodup_cons] at hn
    rw [List.flatMap_cons, valuesOf_append]
    rcases List.mem_cons.mp hm with rfl | hm
    · have hrest : valuesOf (keyOf owner) (rest.flatMap owned) = [] := by
        rw [valuesOf, List.filterMap_eq_nil_iff]
        intro entry he
        obtain ⟨other, ho, he⟩ := List.mem_flatMap.mp he
        refine if_neg fun h => hn.1 (List.mem_map.mpr ⟨other, ho, ?_⟩)
        rw [← hothers other ho entry he, h]
      rw [hrest, List.append_nil, valuesOf, ← List.filterMap_eq_map']
      exact List.filterMap_congr fun entry he => if_pos (hfirst entry he)
    · have hnone : valuesOf (keyOf owner) (owned first) = [] := by
        rw [valuesOf, List.filterMap_eq_nil_iff]
        refine fun entry he => if_neg fun h => hn.1 (List.mem_map.mpr ⟨owner, hm, ?_⟩)
        rw [← h, hfirst entry he]
      rw [hnone, List.nil_append, ih hothers hn.2 hm]

end Grouping

end SourceGen
