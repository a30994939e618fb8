import SourceGen.Proofs.Collections
import SourceGen.Session.FileStore

/-! The inputs that hold the files of a session. Setting files puts each of them into an input of
its own. A new assembly name reaches the last input of each path. -/

namespace SourceGen

/-- The files after the assembly got another name: of inputs with the same path, only the last one
has it. -/
def FileInput.renameLast (name : Option String) : List FileInput → List FileInput
  | [] => []
  | input :: rest =>
    (if input.file.path ∈ rest.map (·.file.path) then input
      else { input with assemblyName := name }) :: renameLast name rest

namespace FileInput

theorem renameLast_paths (name : Option String) (inputs : List FileInput) :
    (renameLast name inputs).map (·.file.path) = inputs.map (·.file.path) := by
  induction inputs with
  | nil => rfl
  | cons input rest ih =>
    simp only [renameLast, List.map_cons, ih]
    split <;> rfl

/-- Of several new names only the newest counts. -/
theorem renameLast_renameLast (name older : Option String) (inputs : List FileInput) :
    renameLast name (renameLast older inputs) = renameLast name inputs := by
  induction inputs with
  | nil => rfl
  | cons input rest ih =>
    simp only [renameLast, renameLast_paths, ih]
    split <;> simp_all

theorem renameLast_inputs_self (config : BuildConfig) (name : Option String)
    (files : List AdditionalFile) :
    renameLast name (config.inputs name files) = config.inputs name files := by
  induction files with
  | nil => rfl
  | cons file rest ih =>
    have hc : config.inputs name (file :: rest) =
        ⟨file, config.forFile file.path, name⟩ :: config.inputs name rest := rfl
    rw [hc, renameLast, ih]
    simp

theorem inputs_paths (config : BuildConfig) (name : Option String)
    (files : List AdditionalFile) :
    (config.inputs name files).map (·.file.path) = files.map (·.path) := by
  simp [BuildConfig.inputs, Function.comp_def]

/-- If no path occurs twice, all inputs get the new name. -/
theorem renameLast_inputs_of_nodup (config : BuildConfig) (name older : Option String)
    {files : List AdditionalFile} (h : (files.map (·.path)).Nodup) :
    renameLast name (config.inputs older files) = config.inputs name files := by
  induction files with
  | nil => rfl
  | cons file rest ih =>
    obtain ⟨hf, hr⟩ := List.nodup_cons.mp h
    have hc (name : Option String) : config.inputs name (file :: rest) =
        ⟨file, config.forFile file.path, name⟩ :: config.inputs name rest := rfl
    rw [hc, hc, renameLast, ih hr, inputs_paths, if_neg hf]

end FileInput

namespace PathTable

/-- The table of inputs that were given one after the other. -/
def ofHeld (held : List (FileInput × Nat)) : PathTable :=
  held.foldl (fun table entry => table.insert entry.1.file.path entry.2) []

private theorem mem_insert {table : PathTable} {path : String} {number : Nat}
    {kept : String × Nat} :
    kept ∈ table.insert path number ↔
      kept = (path, number) ∨ (kept ∈ table ∧ kept.1 ≠ path) := by
  simp [insert, remove]

private theorem mem_foldl_insert (held : List (FileInput × Nat)) (table : PathTable)
    (kept : String × Nat) :
    kept ∈ held.foldl (fun table entry => table.insert entry.1.file.path entry.2) table ↔
      (kept ∈ table ∧ kept.1 ∉ held.map (·.1.file.path)) ∨ kept ∈ ofHeld held := by
  induction held generalizing table with
  | nil => simp [ofHeld]
  | cons entry rest ih =>
    have ho : kept ∈ ofHeld (entry :: rest) ↔
        (kept ∈ insert [] entry.1.file.path entry.2 ∧ kept.1 ∉ rest.map (·.1.file.path)) ∨
          kept ∈ ofHeld rest := ih _
    rw [List.foldl_cons, ih, ho, mem_insert, mem_insert]
    simp only [List.map_cons, List.mem_cons, List.not_mem_nil, false_and, or_false]
    tauto

/-- The last input of a path is kept, those in front of it are not. -/
theorem mem_ofHeld_cons {entry : FileInput × Nat} {rest : List (FileInput × Nat)}
    {kept : String × Nat} :
    kept ∈ ofHeld (entry :: rest) ↔
      (kept = (entry.1.file.path, entry.2) ∧ kept.1 ∉ rest.map (·.1.file.path)) ∨
        kept ∈ ofHeld rest := by
  have h := mem_foldl_insert rest (insert [] entry.1.file.path entry.2) kept
  simp only [mem_insert, List.not_mem_nil, false_and, or_false] at h
  exact h

private theorem foldl_insert_sublist (held : List (FileInput × Nat)) (table : PathTable) :
    (held.foldl (fun table entry => table.insert entry.1.file.path entry.2) table).Sublist
      ((held.map fun entry => (entry.1.file.path, entry.2)).reverse ++ table) := by
  induction held generalizing table with
  | nil => simp
  | cons entry rest ih =>
    have hi : (table.insert entry.1.file.path entry.2).Sublist
        ((entry.1.file.path, entry.2) :: table) :=
      List.filter_sublist.cons_cons _
    simpa using (ih _).trans (hi.append_left _)

theorem nodup_ofHeld {held : List (FileInput × Nat)} (h : (held.map (·.2)).Nodup) :
    ((ofHeld held).map (·.2)).Nodup := by
  have hs := (foldl_insert_sublist held []).map (·.2)
  refine List.Nodup.sublist hs ?_
  simpa [Function.comp_def] using h

private theorem numbers_ofHeld {held : List (FileInput × Nat)} {kept : String × Nat}
    (h : kept ∈ ofHeld held) : kept.2 ∈ held.map (·.2) := by
  induction held with
  | nil => simp [ofHeld] at h
  | cons entry rest ih =>
    rcases mem_ofHeld_cons.mp h with ⟨rfl, -⟩ | h
    · simp
    · exact List.mem_cons_of_mem _ (ih h)

end PathTable

/-- Whether the inputs of a store hold some files under numbers of their own, and the last one of
each path is kept for it. -/
structure FileStore.Holds (store : FileStore) (held : List (FileInput × Nat)) : Prop where
  listed : store.listed = some (held.map (·.2))
  nodup : (held.map (·.2)).Nodup
  inputs : ∀ entry ∈ held, store.inputs[entry.2]? = some entry.1
  byPath : store.byPath = .ofHeld held

/-- Whether the inputs that are kept for paths are different ones and all have an assembly name. -/
structure FileIntake.Spare (intake : FileIntake) (name : Option String) : Prop where
  nodup : (intake.previous.map (·.2)).Nodup
  unlisted : ∀ kept ∈ intake.previous, kept.2 ∉ intake.listed
  named : ∀ kept ∈ intake.previous,
    ∃ input, intake.inputs[kept.2]? = some input ∧ input.assemblyName = name

namespace FileIntake

variable (config : BuildConfig) {name : Option String}

/-- The store that the intake makes. -/
def toStore (intake : FileIntake) : FileStore :=
  { inputs := intake.inputs, listed := some intake.listed, byPath := intake.byPath }

private theorem holds_snoc {intake : FileIntake} {held : List (FileInput × Nat)}
    (hh : intake.toStore.Holds held) {inputs : List FileInput} (input : FileInput) {number : Nat}
    (hn : number ∉ held.map (·.2)) (hnew : inputs[number]? = some input)
    (hold : ∀ other, other ≠ number → ∀ old, intake.inputs[other]? = some old →
      inputs[other]? = some old) (previous : PathTable) :
    (FileIntake.toStore
      { previous := previous
        inputs := inputs
        byPath := intake.byPath.insert input.file.path number
        listed := intake.listed ++ [number] }).Holds (held ++ [(input, number)]) where
  listed := by simpa [toStore] using hh.listed
  nodup := by
    rw [List.map_append]
    exact List.nodup_append'.mpr ⟨hh.nodup, by simp, by simpa using hn⟩
  inputs := by
    intro entry hm
    rcases List.mem_append.mp hm with ho | hl
    · refine hold _ ?_ _ (hh.inputs entry ho)
      rintro rfl
      exact hn (List.mem_map_of_mem ho)
    · obtain rfl := List.mem_singleton.mp hl
      exact hnew
  byPath := by
    have := hh.byPath
    simp_all [toStore, PathTable.ofHeld]

private theorem mem_of_remove {table : PathTable} {path : String} {kept : String × Nat}
    (h : kept ∈ table.remove path) : kept ∈ table ∧ kept.1 ≠ path := by
  simpa [PathTable.remove] using h

/-- Taking over a file gives it an input of its own, with the name of the assembly. -/
private theorem takeOver_holds {intake : FileIntake} {held : List (FileInput × Nat)}
    (hh : intake.toStore.Holds held) (hs : intake.Spare name) (file : AdditionalFile) :
    ∃ number,
      (takeOver config name intake file).toStore.Holds
        (held ++ [(⟨file, config.forFile file.path, name⟩, number)]) ∧
      (takeOver config name intake file).Spare name := by
  have hl : intake.listed = held.map (·.2) := Option.some.inj hh.listed
  have hprevious : ((intake.previous.remove file.path).map (·.2)).Nodup :=
    hs.nodup.sublist ((List.filter_sublist).map _)
  cases h : intake.previous.lookup file.path with
  | none =>
    refine ⟨intake.inputs.length, ?_, ?_⟩
    · simp only [takeOver, h]
      refine holds_snoc hh ⟨file, config.forFile file.path, name⟩ ?_ (by simp) ?_ _
      · intro hm
        obtain ⟨entry, he, hlen⟩ := List.mem_map.mp hm
        have hi := hh.inputs entry he
        simp [toStore, hlen] at hi
      · intro other _ old ho
        rw [List.getElem?_append_left (List.getElem?_eq_some_iff.mp ho).1, ho]
    · simp only [takeOver, h]
      refine ⟨hprevious, ?_, ?_⟩
      · intro kept hk hm
        obtain ⟨hk, -⟩ := mem_of_remove hk
        obtain ⟨input, hi, -⟩ := hs.named kept hk
        rcases List.mem_append.mp hm with hm | hm
        · exact hs.unlisted kept hk hm
        · simp [List.mem_singleton.mp hm] at hi
      · intro kept hk
        obtain ⟨input, hi, hname⟩ := hs.named kept (mem_of_remove hk).1
        exact ⟨input, by rw [List.getElem?_append_left (List.getElem?_eq_some_iff.mp hi).1, hi],
          hname⟩
  | some number =>
    have hm := mem_of_lookup h
    obtain ⟨input, hi, rfl⟩ := hs.named _ hm
    refine ⟨number, ?_, ?_⟩
    · simp only [takeOver, h]
      refine holds_snoc hh ⟨file, config.forFile file.path, _⟩
        (hl ▸ hs.unlisted _ hm) (by simp [hi]) ?_ _
      intro other hne old ho
      rw [List.getElem?_modify_ne _ _ hne.symm, ho]
    · simp only [takeOver, h]
      have hne {kept : String × Nat} (hk : kept ∈ intake.previous.remove file.path) :
          kept.2 ≠ number := by
        intro he
        obtain ⟨hk, hp⟩ := mem_of_remove hk
        exact hp (congrArg Prod.fst (List.inj_on_of_nodup_map hs.nodup hk hm he))
      refine ⟨hprevious, ?_, ?_⟩
      · intro kept hk hmem
        rcases List.mem_append.mp hmem with hmem | hmem
        · exact hs.unlisted kept (mem_of_remove hk).1 hmem
        · exact hne hk (List.mem_singleton.mp hmem)
      · intro kept hk
        obtain ⟨other, ho, hname⟩ := hs.named kept (mem_of_remove hk).1
        exact ⟨other, by rw [List.getElem?_modify_ne _ _ (hne hk).symm, ho], hname⟩

private theorem foldl_takeOver_holds (files : List AdditionalFile) {intake : FileIntake}
    {held : List (FileInput × Nat)} (hh : intake.toStore.Holds held) (hs : intake.Spare name) :
    ∃ later, later.map (·.1) = config.inputs name files ∧
      (files.foldl (takeOver config name) intake).toStore.Holds (held ++ later) := by
  induction files generalizing intake held with
  | nil => exact ⟨[], rfl, by simpa using hh⟩
  | cons file rest ih =>
    obtain ⟨number, hh', hs'⟩ := takeOver_holds config hh hs file
    obtain ⟨later, hlater, hlast⟩ := ih hh' hs'
    exact ⟨_ :: later, congrArg _ hlater, by simpa using hlast⟩

end FileIntake

namespace FileStore

/-- Whether the inputs that are kept for paths are different ones and all have an assembly name. -/
structure Named (store : FileStore) (name : Option String) : Prop where
  nodup : (store.byPath.map (·.2)).Nodup
  named : ∀ kept ∈ store.byPath,
    ∃ input, store.inputs[kept.2]? = some input ∧ input.assemblyName = name

theorem inUse_of_holds {store : FileStore} {held : List (FileInput × Nat)}
    (h : store.Holds held) : store.inUse = some (held.map (·.1)) := by
  rw [inUse, h.listed, Option.map_some, List.filterMap_map]
  congr 1
  rw [← List.filterMap_eq_map]
  exact List.filterMap_congr h.inputs

/-- Setting files gives each of them an input with the name of the assembly, also if paths occur
more than once. -/
theorem replace_holds {store : FileStore} {name : Option String} (hn : store.Named name)
    (config : BuildConfig) (files : List AdditionalFile) :
    ∃ held, held.map (·.1) = config.inputs name files ∧
      (store.replace config name files).Holds held := by
  let start : FileIntake := { previous := store.byPath, inputs := store.inputs }
  have hh : start.toStore.Holds [] := ⟨rfl, by simp, by simp, rfl⟩
  exact FileIntake.foldl_takeOver_holds config files hh ⟨hn.nodup, by simp [start], hn.named⟩

/-- The inputs that a replacement keeps for paths have the name of the assembly. -/
theorem replace_named {store : FileStore} {name : Option String} (hn : store.Named name)
    (config : BuildConfig) (files : List AdditionalFile) :
    (store.replace config name files).Named name := by
  obtain ⟨held, hf, hh⟩ := replace_holds hn config files
  refine ⟨by rw [hh.byPath]; exact PathTable.nodup_ofHeld hh.nodup, fun kept hk => ?_⟩
  rw [hh.byPath] at hk
  obtain ⟨entry, he, hnumber⟩ := List.mem_map.mp (PathTable.numbers_ofHeld hk)
  refine ⟨entry.1, hnumber ▸ hh.inputs entry he, ?_⟩
  have hm : entry.1 ∈ config.inputs name files := hf ▸ List.mem_map_of_mem he
  obtain ⟨file, -, hfile⟩ := List.mem_map.mp hm
  rw [← hfile]

private theorem getElem?_foldl_modify (change : FileInput → FileInput)
    (hchange : ∀ input, change (change input) = change input) (table : PathTable)
    (inputs : List FileInput) (number : Nat) :
    (table.foldl (fun inputs entry => inputs.modify entry.2 change) inputs)[number]? =
      if number ∈ table.map (·.2) then inputs[number]?.map change else inputs[number]? := by
  induction table generalizing inputs with
  | nil => simp
  | cons entry rest ih =>
    rw [List.foldl_cons, ih, List.map_cons]
    by_cases h : entry.2 = number
    · subst h
      cases hi : inputs[entry.2]? <;> simp [hi, hchange]
    · rw [List.getElem?_modify_ne _ _ h]
      simp only [List.mem_cons, Ne.symm h, false_or]

private theorem rename_inputs (store : FileStore) (name : String) (number : Nat) :
    (store.rename name).inputs[number]? =
      if number ∈ store.byPath.map (·.2) then
        store.inputs[number]?.map fun input => { input with assemblyName := some name }
      else store.inputs[number]? :=
  getElem?_foldl_modify (fun input => { input with assemblyName := some name })
    (fun _ => rfl) _ _ _

/-- A new assembly name reaches all inputs that are kept for paths. -/
theorem rename_named {store : FileStore} {older : Option String} (hn : store.Named older)
    (name : String) : (store.rename name).Named (some name) := by
  refine ⟨hn.nodup, fun kept hk => ?_⟩
  obtain ⟨input, hi, -⟩ := hn.named kept hk
  refine ⟨{ input with assemblyName := some name }, ?_, rfl⟩
  have hm : kept.2 ∈ store.byPath.map (·.2) := List.mem_map_of_mem hk
  rw [rename_inputs, if_pos hm, hi]
  rfl

private theorem map_kept (name : Option String) {held : List (FileInput × Nat)}
    (h : (held.map (·.2)).Nodup) :
    held.map (fun entry =>
      if entry.2 ∈ (PathTable.ofHeld held).map (·.2) then
        { entry.1 with assemblyName := name }
      else entry.1) = FileInput.renameLast name (held.map (·.1)) := by
  induction held with
  | nil => rfl
  | cons entry rest ih =>
    obtain ⟨he, hr⟩ := List.nodup_cons.mp h
    have hhead : entry.2 ∈ (PathTable.ofHeld (entry :: rest)).map (·.2) ↔
        entry.1.file.path ∉ rest.map (·.1.file.path) := by
      refine ⟨fun hm => ?_, fun hl => ?_⟩
      · obtain ⟨kept, hk, hnumber⟩ := List.mem_map.mp hm
        rcases PathTable.mem_ofHeld_cons.mp hk with ⟨rfl, hl⟩ | hk
        · exact hl
        · have hn := PathTable.numbers_ofHeld hk
          rw [hnumber] at hn
          exact absurd hn he
      · exact List.mem_map.mpr ⟨_, PathTable.mem_ofHeld_cons.mpr (.inl ⟨rfl, hl⟩), rfl⟩
    have htail {other : FileInput × Nat} (hm : other ∈ rest) :
        other.2 ∈ (PathTable.ofHeld (entry :: rest)).map (·.2) ↔
          other.2 ∈ (PathTable.ofHeld rest).map (·.2) := by
      have hne : other.2 ≠ entry.2 := by
        intro h
        exact he (List.mem_map.mpr ⟨other, hm, h⟩)
      simp only [List.mem_map, PathTable.mem_ofHeld_cons]
      refine ⟨?_, fun ⟨kept, hk, hnumber⟩ => ⟨kept, .inr hk, hnumber⟩⟩
      rintro ⟨kept, ⟨rfl, -⟩ | hk, hnumber⟩
      · exact absurd hnumber.symm hne
      · exact ⟨kept, hk, hnumber⟩
    rw [List.map_cons, List.map_cons, FileInput.renameLast, ← ih hr, List.map_map]
    congr 1
    · by_cases hl : entry.1.file.path ∈ rest.map (·.1.file.path)
      · rw [if_neg (mt hhead.mp (not_not.mpr hl))]
        exact (if_pos hl).symm
      · rw [if_pos (hhead.mpr hl)]
        exact (if_neg hl).symm
    · exact List.map_congr_left fun other hm => by simp only [htail hm]

/-- A new assembly name reaches the last input of each path. -/
theorem rename_holds {store : FileStore} {held : List (FileInput × Nat)} (hh : store.Holds held)
    (name : String) :
    ∃ later, later.map (·.1) = FileInput.renameLast (some name) (held.map (·.1)) ∧
      (store.rename name).Holds later := by
  let change (entry : FileInput × Nat) : FileInput :=
    if entry.2 ∈ (PathTable.ofHeld held).map (·.2) then
      { entry.1 with assemblyName := some name }
    else entry.1
  have hpath (entry : FileInput × Nat) : (change entry).file.path = entry.1.file.path := by
    unfold change; split <;> rfl
  refine ⟨held.map fun entry => (change entry, entry.2), ?_, ?_, ?_, ?_, ?_⟩
  · rw [List.map_map]
    exact map_kept (some name) hh.nodup
  · simp [rename, hh.listed, Function.comp_def]
  · simpa [Function.comp_def] using hh.nodup
  · intro entry hm
    obtain ⟨old, ho, rfl⟩ := List.mem_map.mp hm
    rw [rename_inputs, hh.byPath, hh.inputs old ho]
    unfold change
    split <;> rfl
  · simp [rename, hh.byPath, PathTable.ofHeld, List.foldl_map, hpath]

end FileStore

end SourceGen
