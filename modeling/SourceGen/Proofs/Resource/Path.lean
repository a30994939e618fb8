import SourceGen.Proofs.Resource.Culture
import SourceGen.Proofs.Text.Split

/-! The normal spelling of paths. Two paths with one normal spelling give their files the same
names. -/

namespace SourceGen

namespace ResourcePath

/-- The part of a path that leads to the directory above. -/
def up : List Char := ['.', '.']

/-- A path with slashes for all its separators. -/
def slashed (path : List Char) : List Char :=
  path.map fun c => if c = '\\' then '/' else c

def isRooted (path : List Char) : Bool :=
  (slashed path).head? = some '/'

/-- The parts that a path leads through, the last of them first. -/
def trail (path : List Char) : List (List Char) :=
  (Text.splitChars '/' (slashed path)).foldl fold []

/-- The path from the root, or from somewhere, through some parts. -/
def through (rooted : Bool) (parts : List (List Char)) : List Char :=
  if rooted then '/' :: ['/'].intercalate parts else ['/'].intercalate parts

/-- What stands between the slashes of a path. A slash at its start has nothing in front of it. -/
def segments (path : List Char) : List (List Char) :=
  let parts := if path.head? = some '/' then path.tail else path
  if parts.isEmpty then [] else Text.splitChars '/' parts

/-- Whether a part of a path leads on to something of this name. -/
structure IsName (name : List Char) : Prop where
  part : IsPathPart name
  leads : name ∉ [[], ['.'], up]

/-- Whether parts lead up some directories, and from there on down. -/
def AreNormal (parts : List (List Char)) : Prop :=
  ∃ count names, parts = List.replicate count up ++ names ∧ ∀ name ∈ names, IsName name

theorem normalize_eq (path : List Char) :
    normalize path = through (isRooted path) (trail path).reverse := by
  simp [normalize, through, isRooted, trail, slashed]

section Folding

variable {parts : List (List Char)}

theorem fold_nil : fold parts [] = parts := by
  simp [fold]

theorem fold_name {name : List Char} (h : IsName name) : fold parts name = name :: parts := by
  obtain ⟨hne, hdot, hup⟩ : name ≠ [] ∧ name ≠ ['.'] ∧ name ≠ up := by simpa using h.leads
  cases parts with
  | nil => simp [fold, hne, hdot]
  | cons last rest => simp [fold, hne, hdot, show name ≠ ['.', '.'] from hup]

theorem fold_up (count : Nat) :
    fold (List.replicate count up) up = List.replicate (count + 1) up := by
  cases count with
  | zero => rfl
  | succ count => simp [List.replicate_succ, fold, up]

theorem foldl_fold_names {names : List (List Char)} (h : ∀ name ∈ names, IsName name) :
    names.foldl fold parts = names.reverse ++ parts := by
  induction names generalizing parts with
  | nil => rfl
  | cons name names ih =>
    rw [List.foldl_cons, fold_name (h name (by simp)), ih fun other hm => h other (by simp [hm])]
    simp

theorem foldl_fold_ups (count : Nat) :
    (List.replicate count up).foldl fold [] = List.replicate count up := by
  induction count with
  | zero => rfl
  | succ count ih => rw [List.replicate_succ', List.foldl_append, ih, List.foldl_cons,
      List.foldl_nil, fold_up, List.replicate_succ']

/-- Parts that are normal are kept. -/
theorem foldl_fold_normal (h : AreNormal parts) : parts.foldl fold [] = parts.reverse := by
  obtain ⟨count, names, rfl, hnames⟩ := h
  rw [List.foldl_append, foldl_fold_ups, foldl_fold_names hnames, List.reverse_append,
    List.reverse_replicate]

/-- Any part leaves the parts in front of it normal. -/
theorem fold_normal {part : List Char} (hpart : IsPathPart part) (h : AreNormal parts.reverse) :
    AreNormal (fold parts part).reverse := by
  by_cases hleads : part ∉ [[], ['.'], up]
  · obtain ⟨count, names, heq, hnames⟩ := h
    have hname : IsName part := ⟨hpart, hleads⟩
    refine ⟨count, names ++ [part], ?_, List.forall_mem_append.mpr ⟨hnames, by simpa using hname⟩⟩
    rw [fold_name hname, List.reverse_cons, heq, List.append_assoc]
  · have hcases : part = [] ∨ part = ['.'] ∨ part = up := by
      simpa only [List.mem_cons, List.not_mem_nil, or_false] using not_not.mp hleads
    rcases hcases with rfl | rfl | rfl
    · rwa [fold_nil]
    · simpa [fold] using h
    · obtain ⟨count, names, heq, hnames⟩ := h
      rw [List.reverse_eq_iff, List.reverse_append, List.reverse_replicate] at heq
      -- the last name is taken back, if there is one
      rcases names.eq_nil_or_concat' with rfl | ⟨names, last, rfl⟩
      · refine ⟨count + 1, [], ?_, by simp⟩
        rw [heq, List.reverse_nil, List.nil_append, fold_up, List.reverse_replicate, List.append_nil]
      · have hlast : last ≠ up := by
          have hleads := (hnames last (by simp)).leads
          rintro rfl
          simp at hleads
        refine ⟨count, names, ?_, fun name hm => hnames name (by simp [hm])⟩
        rw [heq]
        simp [fold, up, show last ≠ ['.', '.'] from hlast]

theorem foldl_fold_areNormal {pieces : List (List Char)} (hpieces : ∀ part ∈ pieces, IsPathPart part)
    (h : AreNormal parts.reverse) : AreNormal (pieces.foldl fold parts).reverse := by
  induction pieces generalizing parts with
  | nil => exact h
  | cons part pieces ih =>
    rw [List.foldl_cons]
    exact ih (fun other hm => hpieces other (by simp [hm])) (fold_normal (hpieces part (by simp)) h)

end Folding

section Spelling

variable {parts : List (List Char)}

theorem slashed_separators {path : List Char} {c : Char} (h : c ∈ slashed path) : c ≠ '\\' := by
  obtain ⟨other, -, rfl⟩ := List.mem_map.mp h
  split
  · decide
  · assumption

theorem isPathPart_of_mem {path part : List Char} (h : part ∈ Text.splitChars '/' (slashed path)) :
    IsPathPart part := by
  intro c hc
  obtain ⟨hm, hne⟩ := Text.mem_of_mem_splitChars h hc
  simp [isPathSeparator, hne, slashed_separators hm]

theorem trail_normal (path : List Char) : AreNormal (trail path).reverse :=
  foldl_fold_areNormal (fun _ => isPathPart_of_mem) ⟨0, [], rfl, by simp⟩

theorem AreNormal.part (h : AreNormal parts) {part : List Char} (hm : part ∈ parts) :
    IsPathPart part ∧ part ∉ [[], ['.']] := by
  obtain ⟨count, names, rfl, hnames⟩ := h
  rcases List.mem_append.mp hm with hm | hm
  · obtain rfl := List.eq_of_mem_replicate hm
    simp [IsPathPart, isPathSeparator, up]
  · have hleads := (hnames part hm).leads
    exact ⟨(hnames part hm).part, fun hnone => hleads (by simp at hnone ⊢; tauto)⟩

theorem AreNormal.ne_nil (h : AreNormal parts) {part : List Char} (hm : part ∈ parts) : part ≠ [] :=
  fun hnil => (h.part hm).2 (by simp [hnil])

theorem AreNormal.unbroken (h : AreNormal parts) {part : List Char} (hm : part ∈ parts) :
    '/' ∉ part :=
  fun hslash => absurd ((h.part hm).1 _ hslash) (by decide)

/-- What is written through parts is split into them again. -/
theorem splitChars_intercalate (h : AreNormal parts) (hne : parts ≠ []) :
    Text.splitChars '/' (['/'].intercalate parts) = parts := by
  rw [Text.splitChars_eq_splitOn, List.splitOn_intercalate '/' _ hne]
  exact fun part hm => h.unbroken hm

/-- Normal parts put in a row do not start with a separator. -/
theorem head_intercalate (h : AreNormal parts) {c : Char}
    (hc : (['/'].intercalate parts).head? = some c) : isPathSeparator c = false := by
  cases parts with
  | nil => cases hc
  | cons part rest =>
    have hpart := (h.part List.mem_cons_self).1
    cases part with
    | nil => exact absurd rfl (h.ne_nil List.mem_cons_self)
    | cons first more =>
      have hfirst : first = c := by
        cases rest <;> simpa [List.intercalate_cons_cons] using hc
      exact hpart c (by simp [hfirst])

/-- Normal parts are written with slashes only. -/
theorem backslash_through (h : AreNormal parts) (rooted : Bool) : '\\' ∉ through rooted parts := by
  have hjoined : '\\' ∉ ['/'].intercalate parts := by
    intro hc
    rcases Text.mem_intercalate hc with hslash | ⟨part, hm, hc⟩
    · exact absurd hslash (by decide)
    · exact absurd ((h.part hm).1 _ hc) (by decide)
  cases rooted with
  | false => exact hjoined
  | true => simpa [through] using hjoined

theorem slashed_through (h : AreNormal parts) (rooted : Bool) :
    slashed (through rooted parts) = through rooted parts := by
  refine (List.map_congr_left fun c hc => if_neg ?_).trans (List.map_id _)
  rintro rfl
  exact backslash_through h rooted hc

theorem head_through (h : AreNormal parts) (rooted : Bool) :
    (through rooted parts).head? = some '/' ↔ rooted = true := by
  cases rooted with
  | false =>
    have hhead : (['/'].intercalate parts).head? ≠ some '/' := fun hc =>
      absurd (head_intercalate h hc) (by decide)
    simpa [through] using hhead
  | true => simp [through]

theorem isRooted_through (h : AreNormal parts) (rooted : Bool) :
    isRooted (through rooted parts) = rooted := by
  rw [isRooted, slashed_through h, Bool.eq_iff_iff, decide_eq_true_iff, head_through h]

theorem trail_through (h : AreNormal parts) (rooted : Bool) :
    trail (through rooted parts) = parts.reverse := by
  have hjoined : (Text.splitChars '/' (['/'].intercalate parts)).foldl fold [] = parts.reverse := by
    by_cases hne : parts = []
    · subst hne
      rfl
    · rw [splitChars_intercalate h hne, foldl_fold_normal h]
  rw [trail, slashed_through h]
  cases rooted with
  | false => exact hjoined
  | true =>
    rw [through, if_pos rfl, Text.splitChars, if_pos rfl, List.foldl_cons, fold_nil, hjoined]

theorem segments_through (h : AreNormal parts) (rooted : Bool) :
    segments (through rooted parts) = parts := by
  have hinner : (if (through rooted parts).head? = some '/' then (through rooted parts).tail
      else through rooted parts) = ['/'].intercalate parts := by
    simp only [head_through h]
    cases rooted <;> simp [through]
  rw [segments, hinner]
  by_cases hne : parts = []
  · subst hne
    rfl
  · have hsplit := splitChars_intercalate h hne
    have hjoined : (['/'].intercalate parts).isEmpty = false := by
      rw [List.isEmpty_eq_false_iff]
      intro hnil
      have hempty : [] ∈ parts := by
        rw [← hsplit, hnil]
        exact List.mem_singleton_self []
      exact h.ne_nil hempty rfl
    simp [hjoined, hsplit]

/-- Whether a path is spelled in the normal way: with slashes only, and through parts of which each
leads somewhere, up at first and then down. -/
structure IsNormal (path : List Char) : Prop where
  slashes : '\\' ∉ path
  segments : AreNormal (segments path)

theorem isNormal_normalize (path : List Char) : IsNormal (normalize path) := by
  have h := trail_normal path
  rw [normalize_eq]
  exact ⟨backslash_through h _, (segments_through h _).symm ▸ h⟩

/-- A path in its normal spelling is the one through its segments. -/
theorem normalize_segments (path : List Char) :
    normalize path = through (isRooted path) (segments (normalize path)) := by
  have h := trail_normal path
  rw [normalize_eq, segments_through h]

theorem normalize_normalize (path : List Char) : normalize (normalize path) = normalize path := by
  have h := trail_normal path
  rw [normalize_eq path, normalize_eq, isRooted_through h, trail_through h, List.reverse_reverse]

/-- Paths have one normal spelling if they start alike and lead through the same parts. -/
theorem normalize_eq_iff {path other : List Char} :
    normalize path = normalize other ↔ isRooted path = isRooted other ∧ trail path = trail other := by
  constructor
  · intro h
    rw [normalize_eq, normalize_eq] at h
    have hrooted := congrArg isRooted h
    have htrail := congrArg trail h
    rw [isRooted_through (trail_normal _), isRooted_through (trail_normal _)] at hrooted
    rw [trail_through (trail_normal _), trail_through (trail_normal _)] at htrail
    exact ⟨hrooted, by simpa only [List.reverse_reverse] using htrail⟩
  · rintro ⟨hrooted, htrail⟩
    rw [normalize_eq, normalize_eq, hrooted, htrail]

end Spelling

section Files

variable {directory name : List Char}

theorem isRooted_append (hname : IsName name) :
    isRooted (directory ++ name) = isRooted directory := by
  cases directory with
  | cons c rest => rfl
  | nil =>
    cases name with
    | nil => rfl
    | cons c rest =>
      have hc : isPathSeparator c = false := hname.part c (by simp)
      simp only [isPathSeparator, Bool.or_eq_false_iff, decide_eq_false_iff_not] at hc
      simp [isRooted, slashed, hc]

/-- A name behind a directory is the last part of the path. -/
theorem trail_append (hdirectory : IsDirectory directory) (hname : IsName name) :
    trail (directory ++ name) = name :: trail directory := by
  have hslashed : slashed name = name := by
    refine (List.map_congr_left fun c hc => if_neg ?_).trans (List.map_id _)
    rintro rfl
    exact absurd (hname.part _ hc) (by decide)
  have hsplit : Text.splitChars '/' name = [name] := by
    rw [Text.splitChars_eq_splitOn, List.splitOn_eq_singleton]
    intro hslash
    exact absurd (hname.part _ hslash) (by decide)
  rcases directory.eq_nil_or_concat' with rfl | ⟨front, last, rfl⟩
  · rw [List.nil_append, trail, hslashed, hsplit, List.foldl_cons, fold_name hname]
    rfl
  · have hlast : slashed (front ++ [last]) = slashed front ++ ['/'] := by
      have hseparator : isPathSeparator last = true := hdirectory last (by simp)
      simp only [isPathSeparator, Bool.or_eq_true, decide_eq_true_eq] at hseparator
      rcases hseparator with rfl | rfl <;> simp [slashed]
    have hdir : trail (front ++ [last]) = trail front := by
      rw [trail, hlast, Text.splitChars_append, List.foldl_append]
      exact fold_nil
    have happend : slashed (front ++ [last] ++ name) = slashed front ++ '/' :: name := by
      rw [slashed, List.map_append, ← slashed, hlast, ← slashed, hslashed]
      simp
    rw [hdir, trail, happend, Text.splitChars_append, List.foldl_append, hsplit, List.foldl_cons,
      fold_name hname]
    rfl

end Files

end ResourcePath

section Parts

theorem isPathPart_lastPathPart (path : List Char) : IsPathPart (lastPathPart path) := by
  intro c hc
  have hkept := List.all_eq_true.mp List.all_takeWhile c (List.mem_reverse.mp hc)
  simpa using hkept

theorem isDirectory_directoryPart (path : List Char) : IsDirectory (directoryPart path) := by
  intro c hc
  have hfirst := List.head?_dropWhile_not (fun c => !isPathSeparator c) path.reverse
  rw [directoryPart, List.getLast?_reverse] at hc
  simpa [hc] using hfirst

end Parts

namespace Culture

/-- The file name of a path, without extension and culture. -/
def baseName (path : String) : List Char :=
  lastPathPart (split path).1.toList

theorem stem_beginning (name : List Char) : stem name <+: name := by
  unfold stem
  split
  · next before after h =>
    split
    · exact List.prefix_rfl
    · rw [splitLastDot?_eq_some h]
      exact List.prefix_append ..
  · exact List.prefix_rfl

theorem splitStem_beginning (name : List Char) : (splitStem name).1 <+: name := by
  unfold splitStem
  split
  · next before after h =>
    split
    · rw [splitLastDot?_eq_some h]
      exact List.prefix_append ..
    · exact List.prefix_rfl
  · exact List.prefix_rfl

theorem split_toList (path : String) :
    (split path).1.toList =
      directoryPart path.toList ++ (splitStem (stem (lastPathPart path.toList))).1 := by
  simp [split]

theorem baseName_eq (path : String) :
    baseName path = (splitStem (stem (lastPathPart path.toList))).1 := by
  rw [baseName, split_toList]
  refine lastPathPart_append (isDirectory_directoryPart _) fun c hc => ?_
  have hfront := (splitStem_beginning _).trans (stem_beginning (lastPathPart path.toList))
  exact isPathPart_lastPathPart _ c (hfront.subset hc)

theorem split_eq_baseName (path : String) :
    (split path).1.toList = directoryPart path.toList ++ baseName path := by
  rw [split_toList, baseName_eq]

open ResourcePath (IsName up)

theorem isName_baseName {path : String} (h : baseName path ∉ [[], ['.'], up]) :
    IsName (baseName path) :=
  ⟨isPathPart_lastPathPart _, h⟩

/-- A file is named if it is without extension and culture. -/
theorem isName_fileName {path : String} (h : baseName path ∉ [[], ['.'], up]) :
    IsName (lastPathPart path.toList) := by
  refine ⟨isPathPart_lastPathPart _, fun hnone => h ?_⟩
  rw [baseName_eq]
  simp only [List.mem_cons, List.not_mem_nil, or_false] at hnone
  rcases hnone with hname | hname | hname <;> rw [hname] <;> decide

end Culture

namespace ResourceFile

open ResourcePath
open Culture (baseName)

theorem key?_congr (settings : Settings) (assemblyName : Option String) {path other : String}
    (hnormal : normalize path.toList = normalize other.toList)
    (hname : lastPathPart path.toList = lastPathPart other.toList) :
    key? settings assemblyName path = key? settings assemblyName other := by
  simp only [key?, namespace?, resourceName?, hnormal, hname]

/-- Paths of one normal spelling differ only in how their directories are spelled. -/
theorem split_normalize {path other : String}
    (hnormal : normalize path.toList = normalize other.toList)
    (hpath : baseName path ∉ [[], ['.'], up]) (hother : baseName other ∉ [[], ['.'], up]) :
    lastPathPart path.toList = lastPathPart other.toList ∧
      normalize (Culture.split path).1.toList = normalize (Culture.split other).1.toList := by
  have hdirectory := isDirectory_directoryPart path.toList
  have hdirectory' := isDirectory_directoryPart other.toList
  obtain ⟨hrooted, htrail⟩ := normalize_eq_iff.mp hnormal
  rw [← directoryPart_append_lastPathPart path.toList,
    ← directoryPart_append_lastPathPart other.toList] at hrooted htrail
  rw [isRooted_append (Culture.isName_fileName hpath),
    isRooted_append (Culture.isName_fileName hother)] at hrooted
  rw [trail_append hdirectory (Culture.isName_fileName hpath),
    trail_append hdirectory' (Culture.isName_fileName hother)] at htrail
  obtain ⟨hfile, htrail⟩ := List.cons.inj htrail
  refine ⟨hfile, normalize_eq_iff.mpr ?_⟩
  have hbase : baseName path = baseName other := by
    rw [Culture.baseName_eq, Culture.baseName_eq, hfile]
  have hname := Culture.isName_baseName hother
  rw [Culture.split_eq_baseName, Culture.split_eq_baseName, hbase, isRooted_append hname,
    isRooted_append hname, trail_append hdirectory hname, trail_append hdirectory' hname, hrooted,
    htrail]
  exact ⟨rfl, rfl⟩

/-- The normal spelling of a path is its own, and it is normal. Files whose paths have one normal
spelling belong to one class and one culture, or are left out by one rule. -/
theorem read_spelling :
    (∀ path, normalize (normalize path) = normalize path ∧ IsNormal (normalize path)) ∧
    ∀ a b : FileInput, normalize a.file.path.toList = normalize b.file.path.toList →
      baseName a.file.path ∉ [[], ['.'], up] → baseName b.file.path ∉ [[], ['.'], up] →
      a.settings = b.settings → a.assemblyName = b.assemblyName → a.file.text = b.file.text →
      (∃ file other, read a = .ok file ∧ read b = .ok other ∧
        file.key = other.key ∧ file.locale = other.locale ∧ file.data = other.data) ∨
      ∃ rule : Rule,
        read a = .error (rule.report (some { path := a.file.path }) [a.file.path]) ∧
        read b = .error (rule.report (some { path := b.file.path }) [b.file.path]) := by
  refine ⟨fun path => ⟨normalize_normalize path, isNormal_normalize path⟩, ?_⟩
  intro a b hnormal ha hb hsettings hassembly htext
  cases hdata : ResourceData.read a.file.text with
  | none =>
    have hdata' := hdata
    rw [htext] at hdata'
    exact .inr ⟨.resourceUnreadable, by simp only [read, hdata], by simp only [read, hdata']⟩
  | some data =>
    have hdata' := hdata
    rw [htext] at hdata'
    obtain ⟨hfile, hresource⟩ := split_normalize hnormal ha hb
    have hlocale : (Culture.split a.file.path).2 = (Culture.split b.file.path).2 := by
      simp only [Culture.split, hfile]
    have hname : lastPathPart (Culture.split a.file.path).1.toList =
        lastPathPart (Culture.split b.file.path).1.toList := by
      rw [← baseName, ← baseName, Culture.baseName_eq, Culture.baseName_eq, hfile]
    have hsplit (input : FileInput) : Culture.split input.file.path =
      ((Culture.split input.file.path).1, (Culture.split input.file.path).2) := rfl
    rw [read_eq hdata (hsplit a), read_eq hdata' (hsplit b), hsettings, hassembly,
      key?_congr b.settings b.assemblyName hresource hname]
    cases key? b.settings b.assemblyName (Culture.split b.file.path).1 with
    | error rule => exact .inr ⟨rule, rfl, rfl⟩
    | ok key => exact .inl ⟨_, _, rfl, rfl, rfl, hlocale, rfl⟩

/-- A path that leaves a directory again, and one that never was there. -/
theorem read_spelling_back :
    let spelled (path : String) : FileInput :=
      ⟨⟨path, "<root/>"⟩, [("build_property.ProjectDir", "C:\\App")], some "App"⟩
    normalize "C:/App/Res\\..\\.//My.Strings.de.resx".toList =
        normalize "C:\\App\\My.Strings.de.resx".toList ∧
      ∃ file other, read (spelled "C:/App/Res\\..\\.//My.Strings.de.resx") = .ok file ∧
        read (spelled "C:\\App\\My.Strings.de.resx") = .ok other ∧
        file.key = ⟨"App", "My_Strings", "App.My.Strings"⟩ ∧ file.key = other.key ∧
        file.locale = "de" ∧ file.locale = other.locale := by
  intro spelled
  have hnormal : normalize "C:/App/Res\\..\\.//My.Strings.de.resx".toList =
      normalize "C:\\App\\My.Strings.de.resx".toList := by decide +kernel
  have hread := read_spelling.2 (spelled "C:/App/Res\\..\\.//My.Strings.de.resx")
    (spelled "C:\\App\\My.Strings.de.resx") hnormal (by decide +kernel) (by decide +kernel) rfl rfl
    rfl
  refine ⟨hnormal, ?_⟩
  have hok : (read (spelled "C:/App/Res\\..\\.//My.Strings.de.resx")).toOption.map
      (fun file => (file.key, file.locale)) =
      some (⟨"App", "My_Strings", "App.My.Strings"⟩, "de") := by decide +kernel
  rcases hread with ⟨file, other, hfile, hother, hkey, hlocale, -⟩ | ⟨rule, hrule, -⟩
  · rw [hfile] at hok
    obtain ⟨hk, hl⟩ := Prod.mk.inj (Option.some.inj hok)
    exact ⟨file, other, hfile, hother, hk, hkey, hl, hlocale⟩
  · rw [hrule] at hok
    cases hok

end ResourceFile

end SourceGen
