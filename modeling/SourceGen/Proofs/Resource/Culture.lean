import SourceGen.Resource.File
import Mathlib.Data.List.Basic

/-! The files of a resource, one for each culture and one for none, have names that differ only in
the culture. They are taken for parts of one class. -/

namespace SourceGen

section Paths

/-- Whether a path is empty or leads up to a separator. -/
def IsDirectory (path : List Char) : Prop :=
  ∀ c, path.getLast? = some c → isPathSeparator c = true

/-- Whether the characters stand in one part of a path. -/
def IsPathPart (name : List Char) : Prop :=
  ∀ c ∈ name, isPathSeparator c = false

theorem IsPathPart.append {name other : List Char} (h : IsPathPart name) (hother : IsPathPart other) :
    IsPathPart (name ++ other) :=
  List.forall_mem_append.mpr ⟨h, hother⟩

theorem IsPathPart.dot {name : List Char} (h : IsPathPart name) : IsPathPart ('.' :: name) :=
  List.forall_mem_cons.mpr ⟨rfl, h⟩

theorem directoryPart_append_lastPathPart (path : List Char) :
    directoryPart path ++ lastPathPart path = path := by
  rw [directoryPart, lastPathPart, ← List.reverse_append, List.takeWhile_append_dropWhile,
    List.reverse_reverse]

variable {directory name : List Char}

theorem lastPathPart_append (hdirectory : IsDirectory directory) (hname : IsPathPart name) :
    lastPathPart (directory ++ name) = name := by
  have hnone : directory.reverse.takeWhile (fun c => !isPathSeparator c) = [] := by
    cases hreverse : directory.reverse with
    | nil => rfl
    | cons c rest =>
      have hlast : directory.getLast? = some c := by
        rw [List.getLast?_eq_head?_reverse, hreverse, List.head?_cons]
      simp [hdirectory c hlast]
  have hpart : ∀ c ∈ name.reverse, (!isPathSeparator c) = true := by
    intro c hc
    simp [hname c (List.mem_reverse.mp hc)]
  rw [lastPathPart, List.reverse_append, List.takeWhile_append_of_pos hpart, hnone,
    List.append_nil, List.reverse_reverse]

theorem directoryPart_append (hdirectory : IsDirectory directory) (hname : IsPathPart name) :
    directoryPart (directory ++ name) = directory := by
  have h := directoryPart_append_lastPathPart (directory ++ name)
  rw [lastPathPart_append hdirectory hname] at h
  exact List.append_cancel_right h

theorem splitLastDot?_append {before after : List Char} (h : '.' ∉ after) :
    splitLastDot? (before ++ '.' :: after) = some (before, after) := by
  have hnone : ∀ c ∈ after.reverse, decide (c ≠ '.') = true := by
    intro c hc
    exact decide_eq_true fun hdot => h (hdot ▸ List.mem_reverse.mp hc)
  have hafter : ((before ++ '.' :: after).reverse.takeWhile (· ≠ '.')).reverse = after := by
    rw [List.reverse_append, List.reverse_cons, List.append_assoc,
      List.takeWhile_append_of_pos hnone]
    simp
  have hlength : (before ++ '.' :: after).length - after.length - 1 = before.length := by
    simp only [List.length_append, List.length_cons]
    omega
  rw [splitLastDot?, if_pos (by simp)]
  dsimp only
  rw [hafter, hlength, List.take_left]

theorem splitLastDot?_eq_some {chars before after : List Char}
    (h : splitLastDot? chars = some (before, after)) : chars = before ++ '.' :: after := by
  have hdot : '.' ∈ chars := by
    by_contra hdot
    rw [splitLastDot?, if_neg hdot] at h
    cases h
  obtain ⟨back, front, hchars, hback⟩ := List.eq_append_cons_of_mem (List.mem_reverse.mpr hdot)
  have heq : chars = front.reverse ++ '.' :: back.reverse := by
    rw [← List.reverse_reverse chars, hchars]
    simp
  rw [heq, splitLastDot?_append (by simpa using hback)] at h
  obtain ⟨rfl, rfl⟩ := Prod.mk.inj (Option.some.inj h)
  exact heq

end Paths

namespace Culture

/-- A character is the separator or stands in one of the parts between separators. -/
private theorem mem_splitChars {separator c : Char} {text : List Char} (h : c ∈ text) :
    c = separator ∨ ∃ part ∈ Text.splitChars separator text, c ∈ part := by
  fun_induction Text.splitChars separator text with
  | case1 => cases h
  | case2 rest ih =>
    rcases List.mem_cons.mp h with rfl | h
    · exact .inl rfl
    · exact (ih h).imp_right fun ⟨part, hpart, hc⟩ => ⟨part, List.mem_cons_of_mem _ hpart, hc⟩
  | case3 first rest hfirst hparts ih =>
    rcases List.mem_cons.mp h with rfl | h
    · exact .inr ⟨[c], by simp⟩
    · exact (ih h).imp_right fun ⟨part, hpart, _⟩ => by simp [hparts] at hpart
  | case4 first rest hfirst part parts hparts ih =>
    rcases List.mem_cons.mp h with rfl | h
    · exact .inr ⟨c :: part, by simp⟩
    · refine (ih h).imp_right fun ⟨other, hother, hc⟩ => ?_
      rw [hparts] at hother
      rcases List.mem_cons.mp hother with rfl | hother
      · exact ⟨first :: other, by simp [hc]⟩
      · exact ⟨other, by simp [hother], hc⟩

/-- A culture is spelled with ASCII letters, digits and dashes. -/
theorem isName_characters {name : List Char} (h : isName name = true) {c : Char} (hc : c ∈ name) :
    c = '-' ∨ isAlphanumeric c = true := by
  rw [isName] at h
  split at h
  · next language subtags hparts =>
    simp only [isLanguage, Bool.and_eq_true, List.all_eq_true] at h
    obtain ⟨⟨-, hlanguage⟩, hsubtags⟩ := h
    refine (mem_splitChars hc).imp_right fun ⟨part, hpart, hcp⟩ => ?_
    rw [hparts] at hpart
    rcases List.mem_cons.mp hpart with rfl | hpart
    · simp [isAlphanumeric, hlanguage c hcp]
    · have hsubtag := hsubtags part hpart
      simp only [isSubtag, Bool.and_eq_true, List.all_eq_true] at hsubtag
      exact hsubtag.2 c hcp
  · cases h

theorem isName_dot {name : List Char} (h : isName name = true) : '.' ∉ name := by
  intro hdot
  have hspelled := isName_characters h hdot
  revert hspelled
  decide

theorem isName_part {name : List Char} (h : isName name = true) : IsPathPart name := by
  intro c hc
  have hspelled := isName_characters h hc
  refine Bool.eq_false_iff.mpr fun hseparator => ?_
  have hslash : c = '/' ∨ c = '\\' := by simpa [isPathSeparator] using hseparator
  rcases hslash with rfl | rfl
  all_goals
    revert hspelled
    decide

/-- What the files of a resource are named, in front of their cultures and extensions. -/
structure IsStem (stem : List Char) : Prop where
  nonempty : stem ≠ []
  part : IsPathPart stem
  neutral : ∀ front name, isName name = true → stem ≠ front ++ '.' :: name

structure IsExtension (extension : List Char) : Prop where
  dot : '.' ∉ extension
  part : IsPathPart extension

section Splitting

variable {directory base extension culture : List Char}

theorem splitStem_neutral (h : IsStem base) : splitStem base = (base, neutral) := by
  rw [splitStem]
  split
  · next before after hsplit =>
    exact if_neg fun hname => h.neutral before after hname (splitLastDot?_eq_some hsplit)
  · rfl

theorem splitStem_culture (h : isName culture = true) :
    splitStem (base ++ '.' :: culture) = (base, String.ofList culture) := by
  rw [splitStem, splitLastDot?_append (isName_dot h)]
  exact if_pos h

theorem stem_extension (hne : base ≠ []) (h : IsExtension extension) :
    stem (base ++ '.' :: extension) = base := by
  rw [stem, splitLastDot?_append h.dot]
  exact if_neg (by simpa using hne)

/-- The directory of a path stays as it is, and the culture is looked for in the file name. -/
theorem split_eq {path : String} (hdirectory : IsDirectory directory) (hpart : IsPathPart base)
    (hne : base ≠ []) (h : IsExtension extension)
    (hpath : path.toList = directory ++ (base ++ '.' :: extension)) :
    split path = (String.ofList (directory ++ (splitStem base).1), (splitStem base).2) := by
  have hname : IsPathPart (base ++ '.' :: extension) := hpart.append h.part.dot
  rw [split, hpath, lastPathPart_append hdirectory hname, directoryPart_append hdirectory hname,
    stem_extension hne h]

end Splitting

/-- A file of a resource: `base` is its path without culture and extension. -/
inductive IsFileOf (base : String) : String → Locale → Prop
  | neutral {extension : String} (h : IsExtension extension.toList) :
      IsFileOf base (base ++ "." ++ extension) neutral
  | culture {culture extension : String} (hculture : isName culture.toList = true)
      (h : IsExtension extension.toList) :
      IsFileOf base (base ++ "." ++ culture ++ "." ++ extension) culture

theorem split_file {directory stem path : String} {locale : Locale}
    (hdirectory : IsDirectory directory.toList) (hstem : IsStem stem.toList)
    (h : IsFileOf (directory ++ stem) path locale) : split path = (directory ++ stem, locale) := by
  cases h with
  | neutral h =>
    rw [split_eq hdirectory hstem.part hstem.nonempty h (by simp), splitStem_neutral hstem]
    simp
  | @culture _ extension hculture h =>
    have hpart := hstem.part.append (isName_part hculture).dot
    rw [split_eq hdirectory hpart (by simp) h (by simp), splitStem_culture hculture]
    simp

end Culture

namespace ResourceFile

open Culture (IsFileOf)

/-- The class of a file that can be read is decided by what is left of its path. -/
theorem read_eq {input : FileInput} {base : String} {locale : Locale} {data : List ResourceData}
    (hdata : ResourceData.read input.file.text = some data)
    (hsplit : Culture.split input.file.path = (base, locale)) :
    read input =
      match key? input.settings input.assemblyName base with
      | .error rule =>
        .error (rule.report (some { path := input.file.path }) [input.file.path])
      | .ok key => .ok ⟨input.file.path, base, locale, key, data⟩ := by
  cases hkey : key? input.settings input.assemblyName base with
  | error rule => simp only [read, hdata, hsplit, hkey]
  | ok key => simp only [read, hdata, hsplit, hkey]

/-- The culture of a file is the part of its name in front of the extension. Files that differ in
it, and that can be read, belong to one class, or are left out by one rule. -/
theorem read_cultures {directory stem : String} (hdirectory : IsDirectory directory.toList)
    (hstem : Culture.IsStem stem.toList) :
    (∀ extension : String, Culture.IsExtension extension.toList →
      Culture.split (directory ++ stem ++ "." ++ extension) =
        (directory ++ stem, Culture.neutral)) ∧
    (∀ culture extension : String, Culture.isName culture.toList = true →
      Culture.IsExtension extension.toList →
      Culture.split (directory ++ stem ++ "." ++ culture ++ "." ++ extension) =
        (directory ++ stem, culture)) ∧
    ∀ (a b : FileInput) (locale other : Locale),
      IsFileOf (directory ++ stem) a.file.path locale →
      IsFileOf (directory ++ stem) b.file.path other →
      a.settings = b.settings → a.assemblyName = b.assemblyName →
      (ResourceData.read a.file.text).isSome → (ResourceData.read b.file.text).isSome →
      (∃ file variant, read a = .ok file ∧ read b = .ok variant ∧ file.key = variant.key ∧
        file.locale = locale ∧ variant.locale = other) ∨
      ∃ rule : Rule,
        read a = .error (rule.report (some { path := a.file.path }) [a.file.path]) ∧
        read b = .error (rule.report (some { path := b.file.path }) [b.file.path]) := by
  refine ⟨fun extension h => Culture.split_file hdirectory hstem (.neutral h),
    fun culture extension hculture h => Culture.split_file hdirectory hstem (.culture hculture h),
    ?_⟩
  intro a b locale other ha hb hsettings hassembly hdata hvariant
  obtain ⟨data, hdata⟩ := Option.isSome_iff_exists.mp hdata
  obtain ⟨variantData, hvariant⟩ := Option.isSome_iff_exists.mp hvariant
  rw [read_eq hdata (Culture.split_file hdirectory hstem ha),
    read_eq hvariant (Culture.split_file hdirectory hstem hb), hsettings, hassembly]
  cases key? b.settings b.assemblyName (directory ++ stem) with
  | error rule => exact .inr ⟨rule, rfl, rfl⟩
  | ok key => exact .inl ⟨_, _, rfl, rfl, rfl, rfl, rfl⟩

/-- A name with a dot of its own, for no culture and for one of a region. -/
theorem read_cultures_region :
    Culture.split "App/My.Strings.resx" = ("App/My.Strings", "Neutral") ∧
    Culture.split "App/My.Strings.pt-BR.resx" = ("App/My.Strings", "pt-BR") ∧
    ∃ file variant,
      read ⟨⟨"App/My.Strings.resx", "<root/>"⟩, [], some "App"⟩ = .ok file ∧
      read ⟨⟨"App/My.Strings.pt-BR.resx", "<root/>"⟩, [], some "App"⟩ = .ok variant ∧
      file.key = variant.key ∧ file.locale = "Neutral" ∧ variant.locale = "pt-BR" := by
  have hdirectory : IsDirectory "App/".toList := by
    intro c hc
    obtain rfl : '/' = c := by simpa using hc
    rfl
  have hstem : Culture.IsStem "My.Strings".toList := by
    refine ⟨by decide, by simp [IsPathPart, isPathSeparator], fun front name hname h => ?_⟩
    have hsplit : splitLastDot? (front ++ '.' :: name) = some (front, name) :=
      splitLastDot?_append (Culture.isName_dot hname)
    rw [← h] at hsplit
    have hstrings : some ("My".toList, "Strings".toList) = some (front, name) := hsplit
    obtain ⟨-, rfl⟩ := Prod.mk.inj (Option.some.inj hstrings)
    revert hname
    decide
  have hextension : Culture.IsExtension "resx".toList :=
    ⟨by decide, by simp [IsPathPart, isPathSeparator]⟩
  have hculture : Culture.isName "pt-BR".toList = true := by decide
  obtain ⟨hneutral, hregion, hread⟩ := read_cultures hdirectory hstem
  refine ⟨hneutral "resx" hextension, hregion "pt-BR" "resx" hculture hextension, ?_⟩
  have hfiles := hread ⟨⟨"App/My.Strings.resx", "<root/>"⟩, [], some "App"⟩
    ⟨⟨"App/My.Strings.pt-BR.resx", "<root/>"⟩, [], some "App"⟩ _ _ (.neutral hextension)
    (.culture hculture hextension) rfl rfl (by decide +kernel) (by decide +kernel)
  refine hfiles.resolve_right fun ⟨rule, hrule, _⟩ => ?_
  have hok : (read ⟨⟨"App/My.Strings.resx", "<root/>"⟩, [], some "App"⟩).isOk = true := by
    decide +kernel
  rw [hrule] at hok
  cases hok

end ResourceFile

end SourceGen
