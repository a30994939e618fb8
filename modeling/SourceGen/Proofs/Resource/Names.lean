import SourceGen.Proofs.Resource.Path
import Mathlib.Data.List.TakeWhile

/-! The namespace and the name of a resource. The name is that of the file in the namespace, except
in a project without a directory: there a file without one has a namespace, but no name, and the root
has the namespace of the project for its name. -/

namespace SourceGen.ResourcePath

/-- Whether the namespace and the name of a resource go together: there are both or neither, and the
name is that of the last part of the path in the namespace. -/
structure NamesAgree (rootNamespace projectDirectory resourcePath : String) : Prop where
  both : (namespace? rootNamespace projectDirectory resourcePath).isSome =
    (resourceName? rootNamespace projectDirectory resourcePath).isSome
  name : ∀ namespaceName resourceName,
    (namespace? rootNamespace projectDirectory resourcePath = some namespaceName) →
    resourceName? rootNamespace projectDirectory resourcePath = some resourceName →
    ∃ last, (segments (normalize resourcePath.toList)).getLast? = some last ∧
      resourceName = namespaceName ++ "." ++ String.ofList last

section Parents

variable {front last : List Char}

theorem parent_append (h : '/' ∉ last) : parent (front ++ '/' :: last) = front := by
  have hlast : ∀ c ∈ last.reverse, decide (c ≠ '/') = true := by
    intro c hc
    exact decide_eq_true fun hslash => h (hslash ▸ List.mem_reverse.mp hc)
  rw [parent, List.reverse_append, List.reverse_cons, List.append_assoc,
    List.dropWhile_append_of_pos hlast]
  simp

theorem parent_file (h : '/' ∉ last) : parent last = [] := by
  have hlast : last.reverse.dropWhile (· ≠ '/') = [] := by
    rw [List.dropWhile_eq_nil_iff]
    intro c hc
    exact decide_eq_true fun hslash => h (hslash ▸ List.mem_reverse.mp hc)
  rw [parent, hlast]
  rfl

theorem asDirectory_append (h : front.getLast? ≠ some '/') :
    asDirectory front = front ++ ['/'] :=
  if_neg h

/-- A directory is written with a slash at its end. -/
theorem exists_asDirectory (path : List Char) : ∃ front, asDirectory path = front ++ ['/'] := by
  unfold asDirectory
  split
  · next h => exact ⟨path.dropLast, (List.dropLast_append_getLast? '/' h).symm⟩
  · exact ⟨path, rfl⟩

end Parents

section Relative

variable {directory own last rest : List Char}

theorem relative?_eq_some_iff : relative? directory own = some rest ↔ own = directory ++ rest := by
  rw [relative?]
  split
  · next h =>
    obtain ⟨behind, rfl⟩ := List.isPrefixOf_iff_prefix.mp h
    simp
  · next h =>
    have hbegins : ¬directory <+: own := mt List.isPrefixOf_iff_prefix.mpr h
    simp only [reduceCtorEq, false_iff]
    rintro rfl
    exact hbegins (List.prefix_append ..)

theorem relative?_eq_none_iff : relative? directory own = none ↔ ¬directory <+: own := by
  rw [relative?, ← List.isPrefixOf_iff_prefix]
  split <;> simp_all

/-- A directory that holds a file holds the directory of the file. -/
theorem prefix_of_prefix_file {front : List Char} (hlast : '/' ∉ last)
    (h : front ++ ['/'] <+: own ++ last) : front ++ ['/'] <+: own := by
  rcases List.prefix_or_prefix_of_prefix h (List.prefix_append own last) with hown | ⟨more, hmore⟩
  · exact hown
  · rcases more.eq_nil_or_concat' with rfl | ⟨more, c, rfl⟩
    · exact ⟨[], by simpa using hmore.symm⟩
    · rw [← hmore, List.prefix_append_right_inj] at h
      rw [← List.append_assoc] at hmore
      obtain rfl : c = '/' := by simpa using (List.append_inj_right' hmore rfl)
      exact absurd (h.subset (by simp)) hlast

end Relative

section Dots

theorem dotted_append (path other : List Char) :
    dotted (path ++ other) = dotted path ++ dotted other :=
  List.map_append

theorem dotted_file {last : List Char} (h : '/' ∉ last) : dotted last = last := by
  refine (List.map_congr_left fun c hc => if_neg ?_).trans (List.map_id _)
  rintro rfl
  exact h hc

theorem dropWhileEnd_dot {front : List Char} {c : Char} (h : c ≠ '.') :
    Text.dropWhileEnd (· = '.') (front ++ [c, '.']) = front ++ [c] := by
  simp [Text.dropWhileEnd, h]

end Dots

section Normal

variable {parts : List (List Char)}

theorem through_concat (rooted : Bool) (hne : parts ≠ []) (last : List Char) :
    through rooted (parts ++ [last]) = through rooted parts ++ '/' :: last := by
  cases rooted <;> simp [through, Text.intercalate_concat hne]

theorem getLast?_through {last : List Char} (rooted : Bool) (h : parts.getLast? = some last)
    (hne : last ≠ []) : (through rooted parts).getLast? = last.getLast? := by
  obtain ⟨front, rfl⟩ := List.getLast?_eq_some_iff.mp h
  obtain ⟨c, hc⟩ := List.getLast?_isSome.mpr hne |> Option.isSome_iff_exists.mp
  rcases front.eq_nil_or_concat' with rfl | hfront
  · cases rooted <;> simp [through, List.getLast?_cons, hc]
  · have hfront : front ≠ [] := by
      obtain ⟨_, _, rfl⟩ := hfront
      simp
    rw [through_concat rooted hfront, List.getLast?_append, List.getLast?_cons, hc]
    rfl

/-- A normal path with a slash and a part: what stands in front of its last slash, and the part that
stands behind it. The front does not end in a slash; it ends like the directory that is last. -/
structure IsFileIn (parts : List (List Char)) (path front last : List Char) : Prop where
  splits : path = front ++ '/' :: last
  unbroken : '/' ∉ last
  named : last ≠ [] ∧ parts.getLast? = some last
  ended : front.getLast? ≠ some '/'
  directory : ∀ c, front.getLast? = some c → ∃ part ∈ parts.dropLast, part.getLast? = some c

theorem AreNormal.exists_isFileIn (h : AreNormal parts) {rooted : Bool}
    (hslash : '/' ∈ through rooted parts) (hparts : parts ≠ []) :
    ∃ front last, IsFileIn parts (through rooted parts) front last := by
  rcases parts.eq_nil_or_concat' with rfl | ⟨dirs, last, rfl⟩
  · exact absurd rfl hparts
  have hmem : last ∈ dirs ++ [last] := by simp
  have hlast : '/' ∉ last := h.unbroken hmem
  have hnamed : last ≠ [] ∧ (dirs ++ [last]).getLast? = some last := ⟨h.ne_nil hmem, by simp⟩
  by_cases hdirs : dirs = []
  · subst hdirs
    cases rooted with
    | false => exact absurd (by simpa [through] using hslash) hlast
    | true => exact ⟨[], last, by simp [through], hlast, hnamed, by simp, by simp⟩
  · have hpath := through_concat rooted hdirs last
    obtain ⟨directory, hdirectory⟩ : ∃ directory, dirs.getLast? = some directory :=
      ⟨_, List.getLast?_eq_some_getLast hdirs⟩
    have hm : directory ∈ dirs ++ [last] := List.mem_append_left _ (List.mem_of_getLast? hdirectory)
    have hend := getLast?_through rooted hdirectory (h.ne_nil hm)
    refine ⟨through rooted dirs, last, hpath, hlast, hnamed, ?_, fun c hc => ?_⟩
    · rw [hend]
      exact fun hc => h.unbroken hm (List.mem_of_getLast? hc)
    · exact ⟨directory, by simpa using List.mem_of_getLast? hdirectory, hend ▸ hc⟩

end Normal

section Agreement

variable {rootNamespace projectDirectory resourcePath : String} {front last : List Char}

theorem NamesAgree.of_none
    (hnamespace : namespace? rootNamespace projectDirectory resourcePath = none)
    (hname : resourceName? rootNamespace projectDirectory resourcePath = none) :
    NamesAgree rootNamespace projectDirectory resourcePath := by
  refine ⟨by rw [hnamespace, hname], fun namespaceName _ h _ => ?_⟩
  rw [hnamespace] at h
  cases h

theorem NamesAgree.of_some {namespaceName resourceName : String}
    (hnamespace : namespace? rootNamespace projectDirectory resourcePath = some namespaceName)
    (hname : resourceName? rootNamespace projectDirectory resourcePath = some resourceName)
    (hlast : (segments (normalize resourcePath.toList)).getLast? = some last)
    (h : resourceName = namespaceName ++ "." ++ String.ofList last) :
    NamesAgree rootNamespace projectDirectory resourcePath := by
  refine ⟨by rw [hnamespace, hname]; rfl, fun own other hown hother => ⟨last, hlast, ?_⟩⟩
  rw [hnamespace] at hown
  rw [hname] at hother
  rw [← Option.some.inj hown, ← Option.some.inj hother, h]

/-- What the project leaves of a directory makes the namespace: the slash at its end makes a dot that
does not stay, and nothing else goes with it. -/
theorem trimmed_dotted {rest : List Char} {c : Char} (hslash : c ≠ '/') (hdot : c ≠ '.')
    (name : List Char) :
    Text.dropWhileEnd (· = '.') (name ++ '.' :: dotted (rest ++ [c, '/'])) =
      name ++ '.' :: dotted (rest ++ [c]) := by
  have hlast : dotted (rest ++ [c, '/']) = dotted rest ++ [c, '.'] := by
    simp [dotted, hslash]
  have hkept : dotted (rest ++ [c]) = dotted rest ++ [c] := by
    simp [dotted, hslash]
  have happend : name ++ '.' :: (dotted rest ++ [c, '.']) =
      (name ++ '.' :: dotted rest) ++ [c, '.'] := by
    simp
  rw [hlast, hkept, happend, dropWhileEnd_dot hdot]
  simp

/-- What a directory leaves of one further down ends like that one. -/
theorem exists_rest {start rest : List Char} (hended : front.getLast? ≠ some '/')
    (hne : start ++ ['/'] ≠ front ++ ['/']) (h : front ++ ['/'] = start ++ ['/'] ++ rest) :
    ∃ more c, rest = more ++ [c, '/'] ∧ front.getLast? = some c := by
  rcases rest.eq_nil_or_concat' with rfl | ⟨more, last, rfl⟩
  · exact absurd (by simpa using h.symm) hne
  · rw [← List.append_assoc] at h
    obtain ⟨hfront, hlast⟩ := List.append_inj' h rfl
    obtain rfl : '/' = last := by simpa using hlast
    rcases more.eq_nil_or_concat' with rfl | ⟨more, c, rfl⟩
    · exact absurd (by simp [hfront]) hended
    · exact ⟨more, c, by simp, by simp [hfront, ← List.append_assoc]⟩

/-- A file in a directory: what the project leaves of the directory decides both. -/
theorem IsFileIn.namesAgree (h : IsFileIn (segments (normalize resourcePath.toList))
      (normalize resourcePath.toList) front last) (hdot : front.getLast? ≠ some '.') :
    NamesAgree rootNamespace projectDirectory resourcePath := by
  obtain ⟨start, hdirectory⟩ := exists_asDirectory (normalize projectDirectory.toList)
  have hown : asDirectory (parent (normalize resourcePath.toList)) = front ++ ['/'] := by
    rw [h.splits, parent_append h.unbroken, asDirectory_append h.ended]
  have hpath : normalize resourcePath.toList = front ++ ['/'] ++ last := by
    rw [h.splits]
    simp
  have hnamespace : namespace? rootNamespace projectDirectory resourcePath =
      if start ++ ['/'] = front ++ ['/'] then some rootNamespace
      else (relative? (start ++ ['/']) (front ++ ['/'])).map fun rest =>
        String.ofList (Text.dropWhileEnd (· = '.') (rootNamespace.toList ++ '.' :: dotted rest)) := by
    simp only [namespace?, hdirectory, hown]
  have hname : resourceName? rootNamespace projectDirectory resourcePath =
      if start ++ ['/'] = front ++ ['/'] ++ last then some rootNamespace
      else (relative? (start ++ ['/']) (front ++ ['/'] ++ last)).map fun rest =>
        rootNamespace ++ "." ++ String.ofList (dotted rest) := by
    simp only [resourceName?, hdirectory, hpath]
  by_cases hsame : start ++ ['/'] = front ++ ['/']
  · -- the project is the directory of the file
    have hrelative : relative? (start ++ ['/']) (front ++ ['/'] ++ last) = some last :=
      relative?_eq_some_iff.mpr (by rw [hsame])
    rw [if_pos hsame] at hnamespace
    rw [if_neg (by simpa [hsame] using h.named.1), hrelative, Option.map_some,
      dotted_file h.unbroken] at hname
    exact .of_some hnamespace hname h.named.2 rfl
  rw [if_neg hsame] at hnamespace
  cases hrelative : relative? (start ++ ['/']) (front ++ ['/']) with
  | none =>
    have houtside : ¬start ++ ['/'] <+: front ++ ['/'] ++ last := fun hbegins =>
      relative?_eq_none_iff.mp hrelative (prefix_of_prefix_file h.unbroken hbegins)
    have hne : start ++ ['/'] ≠ front ++ ['/'] ++ last := fun heq =>
      houtside (heq ▸ List.prefix_rfl)
    rw [hrelative] at hnamespace
    rw [if_neg hne, relative?_eq_none_iff.mpr houtside] at hname
    exact .of_none hnamespace hname
  | some rest =>
    -- the directory of the file is further down, and its name does not end in a dot
    have heq := relative?_eq_some_iff.mp hrelative
    obtain ⟨more, c, rfl, hc⟩ := exists_rest h.ended hsame heq
    have hslash : c ≠ '/' := fun hslash => h.ended (hslash ▸ hc)
    have hstop : c ≠ '.' := fun hstop => hdot (hstop ▸ hc)
    have hbehind : relative? (start ++ ['/']) (front ++ ['/'] ++ last) =
        some (more ++ [c, '/'] ++ last) :=
      relative?_eq_some_iff.mpr (by rw [heq, List.append_assoc])
    have hne : start ++ ['/'] ≠ front ++ ['/'] ++ last := by
      rw [heq]
      simp
    rw [hrelative, Option.map_some, trimmed_dotted hslash hstop] at hnamespace
    rw [if_neg hne, hbehind, Option.map_some] at hname
    refine .of_some hnamespace hname h.named.2 ?_
    have hdotted : dotted (more ++ [c, '/'] ++ last) = dotted (more ++ [c]) ++ '.' :: last := by
      rw [dotted_append, dotted_file h.unbroken]
      simp [dotted]
    rw [hdotted, ← String.toList_inj]
    simp

/-- The directory of a project is the root, or taken for it, if its path leads nowhere. -/
theorem asDirectory_eq_root_iff (path : List Char) :
    asDirectory (normalize path) = ['/'] ↔ segments (normalize path) = [] := by
  constructor
  · intro h
    have hroot : normalize path = [] ∨ normalize path = ['/'] := by
      rw [asDirectory] at h
      split at h
      · exact .inr h
      · exact .inl (by simpa using h)
    rcases hroot with hpath | hpath <;> rw [hpath] <;> rfl
  · intro h
    rw [normalize_segments, h]
    cases isRooted path <;> rfl

/-- Only a project that leads nowhere holds the root. -/
theorem not_prefix_root (h : segments (normalize projectDirectory.toList) ≠ []) :
    ¬asDirectory (normalize projectDirectory.toList) <+: ['/'] := by
  obtain ⟨start, hdirectory⟩ := exists_asDirectory (normalize projectDirectory.toList)
  have hne := mt (asDirectory_eq_root_iff projectDirectory.toList).mp h
  rw [hdirectory] at hne ⊢
  intro hbegins
  have hlength := hbegins.length_le
  obtain rfl : start = [] := by simpa using hlength
  exact hne rfl

/-- What is in the root is in the namespace of a project that leads nowhere, and of no other. -/
theorem namespace_of_root (h : asDirectory (parent (normalize resourcePath.toList)) = ['/']) :
    (namespace? rootNamespace projectDirectory resourcePath).isSome ↔
      segments (normalize projectDirectory.toList) = [] := by
  simp only [namespace?, h, ← asDirectory_eq_root_iff]
  split
  · next heq => simp [heq]
  · next hne =>
    rw [relative?_eq_none_iff.mpr (not_prefix_root (mt (asDirectory_eq_root_iff _).mpr hne))]
    simp [hne]

/-- What the directory of the project is no part of has no name. -/
theorem resourceName_eq_none
    (h : ¬asDirectory (normalize projectDirectory.toList) <+: normalize resourcePath.toList) :
    resourceName? rootNamespace projectDirectory resourcePath = none := by
  have hne : asDirectory (normalize projectDirectory.toList) ≠ normalize resourcePath.toList :=
    fun heq => h (heq ▸ List.prefix_rfl)
  simp only [resourceName?, if_neg hne, relative?_eq_none_iff.mpr h, Option.map_none]

/-- A file without a directory is within the directory of no project. -/
theorem not_prefix_file (h : '/' ∉ normalize resourcePath.toList) :
    ¬asDirectory (normalize projectDirectory.toList) <+: normalize resourcePath.toList := by
  obtain ⟨start, hdirectory⟩ := exists_asDirectory (normalize projectDirectory.toList)
  rw [hdirectory]
  exact fun hbegins => h (hbegins.subset (by simp))

/-- A path that does not lead to a file in a directory has no slash, or is the root. -/
theorem unbroken_or_root {path : List Char}
    (h : ¬('/' ∈ normalize path ∧ segments (normalize path) ≠ [])) :
    '/' ∉ normalize path ∨ normalize path = ['/'] := by
  refine or_iff_not_imp_left.mpr fun hslash => ?_
  have hparts : segments (normalize path) = [] :=
    not_not.mp fun hne => h ⟨not_not.mp hslash, hne⟩
  have hpath := normalize_segments path
  rw [hparts] at hpath
  cases hrooted : isRooted path with
  | false => simp [hpath, hrooted, through] at hslash
  | true => simpa [hrooted, through] using hpath

/-- The namespace and the name of a resource go together, if no directory in its path ends in a dot
and the path of the project leads through a directory, or that of the resource does or is from the
root. -/
theorem namesAgree_iff (rootNamespace projectDirectory resourcePath : String)
    (h : ∀ part ∈ (segments (normalize resourcePath.toList)).dropLast, part.getLast? ≠ some '.') :
    NamesAgree rootNamespace projectDirectory resourcePath ↔
      segments (normalize projectDirectory.toList) ≠ [] ∨
        '/' ∈ normalize resourcePath.toList ∧ segments (normalize resourcePath.toList) ≠ [] := by
  by_cases hfile : '/' ∈ normalize resourcePath.toList ∧ segments (normalize resourcePath.toList) ≠ []
  · refine iff_of_true ?_ (.inr hfile)
    have hpath := normalize_segments resourcePath.toList
    obtain ⟨front, last, hfile⟩ := (isNormal_normalize resourcePath.toList).segments.exists_isFileIn
      (hpath ▸ hfile.1) hfile.2
    rw [← hpath] at hfile
    refine hfile.namesAgree fun hdot => ?_
    obtain ⟨part, hm, hc⟩ := hfile.directory '.' hdot
    exact h part hm hc
  have hcases := unbroken_or_root hfile
  have hown : asDirectory (parent (normalize resourcePath.toList)) = ['/'] := by
    rcases hcases with hslash | hroot
    · rw [parent_file hslash]
      rfl
    · rw [hroot]
      rfl
  have hnamespace : (namespace? rootNamespace projectDirectory resourcePath).isSome ↔
      segments (normalize projectDirectory.toList) = [] := namespace_of_root hown
  by_cases hproject : segments (normalize projectDirectory.toList) = []
  · -- there is a namespace, but the file has no name, and the root no last part
    refine iff_of_false (fun hagree => ?_) (by simp [hfile, hproject])
    have hsome := hnamespace.mpr hproject
    obtain ⟨namespaceName, hspace⟩ := Option.isSome_iff_exists.mp hsome
    obtain ⟨resourceName, hname⟩ := Option.isSome_iff_exists.mp (hagree.both ▸ hsome)
    obtain ⟨last, hlast, -⟩ := hagree.name namespaceName resourceName hspace hname
    rcases hcases with hslash | hroot
    · rw [resourceName_eq_none (not_prefix_file hslash)] at hname
      cases hname
    · rw [hroot] at hlast
      cases hlast
  · refine iff_of_true (.of_none ?_ (resourceName_eq_none ?_)) (.inl hproject)
    · exact Option.not_isSome_iff_eq_none.mp (mt hnamespace.mp hproject)
    · rcases hcases with hslash | hroot
      · exact not_prefix_file hslash
      · rw [hroot]
        exact not_prefix_root hproject

/-- A file further down in a project, whose path is spelled in another way than that of the
project. -/
theorem namesAgree_iff_nested :
    (∀ part ∈ (segments (normalize "C:/App/./Res/Strings".toList)).dropLast,
      part.getLast? ≠ some '.') ∧
    (namespace? "App" "C:\\App\\" "C:/App/./Res/Strings" = some "App.Res") ∧
    resourceName? "App" "C:\\App\\" "C:/App/./Res/Strings" = some "App.Res.Strings" ∧
    NamesAgree "App" "C:\\App\\" "C:/App/./Res/Strings" := by
  have hdots : ∀ part ∈ (segments (normalize "C:/App/./Res/Strings".toList)).dropLast,
      part.getLast? ≠ some '.' := by decide +kernel
  exact ⟨hdots, by decide +kernel, by decide +kernel,
    (namesAgree_iff "App" "C:\\App\\" "C:/App/./Res/Strings" hdots).mpr
      (.inl (by decide +kernel))⟩

/-- A file in the project whose directory is the current one: it is in the namespace of the project,
but has no name there, and is left out. -/
theorem names_disagree_current :
    (∀ part ∈ (segments (normalize "Strings".toList)).dropLast, part.getLast? ≠ some '.') ∧
    (namespace? "App" "." "Strings" = some "App") ∧ resourceName? "App" "." "Strings" = none ∧
    ¬NamesAgree "App" "." "Strings" ∧
    ResourceFile.read ⟨⟨"Strings.resx", "<root/>"⟩,
        [("build_property.ProjectDir", "."), ("build_property.RootNamespace", "App")], none⟩ =
      .error (Rule.resourceName.report (some { path := "Strings.resx" }) ["Strings.resx"]) := by
  have hnamespace : namespace? "App" "." "Strings" = some "App" := by decide +kernel
  have hname : resourceName? "App" "." "Strings" = none := by decide +kernel
  refine ⟨by decide +kernel, hnamespace, hname, fun hagree => ?_, ?_⟩
  · have hboth := hagree.both
    rw [hnamespace, hname] at hboth
    cases hboth
  · have hdata : ResourceData.read "<root/>" = some [] := by decide +kernel
    rw [ResourceFile.read_eq hdata rfl]
    decide +kernel

end Agreement

end SourceGen.ResourcePath
