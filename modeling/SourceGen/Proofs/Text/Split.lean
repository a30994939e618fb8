import SourceGen.Text.Trim

/-! Texts that are split at a separator. -/

namespace SourceGen.Text

/-- What holds of all characters of a text is decided along the text, not for all characters that
there are. -/
instance decidableForallMem {P : Char → Prop} [DecidablePred P] (text : List Char) :
    Decidable (∀ c ∈ text, P c) :=
  List.decidableBAll P text

variable {separator : Char}

theorem splitChars_eq_splitOn (chars : List Char) :
    splitChars separator chars = chars.splitOn separator := by
  induction chars with
  | nil => rfl
  | cons c rest ih =>
    rw [splitChars, List.splitOn_cons_eq_if_modifyHead, ih]
    by_cases hc : c = separator
    · simp [hc]
    · obtain ⟨part, parts, hparts⟩ := List.exists_cons_of_ne_nil (List.splitOn_ne_nil separator rest)
      simp [hc, hparts]

/-- A separator splits a text into what is in front of it and what is behind it. -/
theorem splitChars_append (front rest : List Char) :
    splitChars separator (front ++ separator :: rest) =
      splitChars separator front ++ splitChars separator rest := by
  simp only [splitChars_eq_splitOn, List.splitOn_append_cons_self]

/-- The parts of a text are made of its characters other than the separator. -/
theorem mem_of_mem_splitChars {chars part : List Char} {c : Char}
    (h : part ∈ splitChars separator chars) (hc : c ∈ part) : c ∈ chars ∧ c ≠ separator := by
  fun_induction splitChars separator chars generalizing part with
  | case1 =>
    obtain rfl := List.mem_singleton.mp h
    cases hc
  | case2 rest ih =>
    rcases List.mem_cons.mp h with rfl | h
    · cases hc
    · exact (ih h hc).imp_left (List.mem_cons_of_mem _)
  | case3 first rest hfirst hparts =>
    obtain rfl := List.mem_singleton.mp h
    obtain rfl := List.mem_singleton.mp hc
    exact ⟨List.mem_cons_self, hfirst⟩
  | case4 first rest hfirst next parts hparts ih =>
    rw [hparts] at ih
    rcases List.mem_cons.mp h with rfl | h
    · rcases List.mem_cons.mp hc with rfl | hc
      · exact ⟨List.mem_cons_self, hfirst⟩
      · exact (ih List.mem_cons_self hc).imp_left (List.mem_cons_of_mem _)
    · exact (ih (List.mem_cons_of_mem _ h) hc).imp_left (List.mem_cons_of_mem _)

/-- Parts in a row are made of their characters and of the separator between them. -/
theorem mem_intercalate {parts : List (List Char)} {c : Char}
    (h : c ∈ [separator].intercalate parts) : c = separator ∨ ∃ part ∈ parts, c ∈ part := by
  induction parts with
  | nil => cases h
  | cons part rest ih =>
    cases rest with
    | nil => exact .inr ⟨part, by simp, by simpa using h⟩
    | cons next rest =>
      rw [List.intercalate_cons_cons, List.append_assoc, List.mem_append] at h
      rcases h with h | h
      · exact .inr ⟨part, by simp, h⟩
      · rcases List.mem_append.mp h with h | h
        · exact .inl (List.mem_singleton.mp h)
        · exact (ih h).imp_right fun ⟨other, hm, hc⟩ => ⟨other, List.mem_cons_of_mem _ hm, hc⟩

theorem intercalate_concat {parts : List (List Char)} (h : parts ≠ []) (last : List Char) :
    [separator].intercalate (parts ++ [last]) =
      [separator].intercalate parts ++ separator :: last := by
  induction parts with
  | nil => exact absurd rfl h
  | cons part rest ih =>
    by_cases hrest : rest = []
    · simp [hrest, List.intercalate_cons_cons]
    · rw [List.cons_append, List.intercalate_cons_of_ne_nil (by simp), ih hrest,
        List.intercalate_cons_of_ne_nil hrest]
      simp only [List.append_assoc]

/-- A text is taken apart at its last separator in one way only, also if a part behind it might be
separated by another one. -/
theorem append_cons_inj {front other last final : List Char} {mark : Char} (hlast : mark ∉ last)
    (hfinal : separator ∉ final) :
    front ++ separator :: last = other ++ mark :: final ↔
      front = other ∧ separator = mark ∧ last = final := by
  refine ⟨fun h => ?_, fun ⟨hfront, hmark, hsame⟩ => by rw [hfront, hmark, hsame]⟩
  rcases List.append_eq_append_iff.mp h with ⟨between, hother, hbehind⟩ | ⟨between, hfront, hbehind⟩
  · cases between with
    | nil => exact ⟨by simpa using hother.symm, List.cons.inj hbehind⟩
    | cons c between =>
      obtain ⟨-, rfl⟩ := List.cons.inj hbehind
      exact absurd (by simp) hlast
  · cases between with
    | nil => exact ⟨by simpa using hfront, List.cons.inj hbehind.symm⟩
    | cons c between =>
      obtain ⟨-, rfl⟩ := List.cons.inj hbehind
      exact absurd (by simp) hfinal

/-- A text is taken apart at its first separator in one way only. -/
theorem append_cons_inj_first {front other rest tail : List Char} (hfront : separator ∉ front)
    (hother : separator ∉ other) :
    front ++ separator :: rest = other ++ separator :: tail ↔ front = other ∧ rest = tail := by
  refine ⟨fun h => ?_, fun ⟨hsame, htail⟩ => by rw [hsame, htail]⟩
  have hreverse : rest.reverse ++ separator :: front.reverse =
      tail.reverse ++ separator :: other.reverse := by
    simpa using congrArg List.reverse h
  obtain ⟨hrest, -, hfront⟩ := (append_cons_inj (by simpa) (by simpa)).mp hreverse
  exact ⟨List.reverse_inj.mp hfront, List.reverse_inj.mp hrest⟩

section Numbers

/-- A number is written with digits only. -/
theorem not_mem_toString {c : Char} (h : c.isDigit = false) (number : Nat) :
    c ∉ (toString number).toList := by
  intro hm
  rw [Nat.toString_eq_ofList_toDigits, String.toList_ofList] at hm
  rw [Nat.isDigit_of_mem_toDigits (by decide) (by decide) hm] at h
  cases h

theorem toString_number_inj {number other : Nat} :
    toString number = toString other ↔ number = other := by
  refine ⟨fun h => ?_, congrArg toString⟩
  rw [Nat.toString_eq_ofList_toDigits, Nat.toString_eq_ofList_toDigits, String.ofList_inj] at h
  rw [← Nat.ofDigitChars_ten_toDigits (n := number), h, Nat.ofDigitChars_ten_toDigits]

end Numbers

end SourceGen.Text
