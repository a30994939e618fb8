import SourceGen.Generator.Endpoints
import SourceGen.Proofs.Text.Split
import Mathlib.Data.List.Infix
import Mathlib.Data.List.Induction
import Mathlib.Tactic.ByContra

/-! The messages of diagnostics. Arguments are put into the template one after the other, so that
one of them can bring along what looks like the hole of a later one. Messages are as their templates
have them as long as this does not happen, and no longer. -/

namespace SourceGen

section Replacement

variable {pattern replacement text result : List Char} {count other : Nat}

/-- How often a pattern occurs in a text. -/
def occurrences (pattern text : List Char) : Nat :=
  text.tails.countP pattern.isPrefixOf

theorem occurrences_cons (c : Char) (text : List Char) :
    occurrences pattern (c :: text) =
      occurrences pattern text + if pattern.isPrefixOf (c :: text) then 1 else 0 := by
  rw [occurrences, List.tails_cons, List.countP_cons, occurrences]

/-- Some occurrences of a pattern in a text are replaced, and the rest of the text is kept. -/
inductive Replaced (pattern replacement : List Char) : Nat → List Char → List Char → Prop
  | nil : Replaced pattern replacement 0 [] []
  | keep {count : Nat} {text result : List Char} (c : Char)
      (h : Replaced pattern replacement count text result) :
      Replaced pattern replacement count (c :: text) (c :: result)
  | swap {count : Nat} {text result : List Char}
      (h : Replaced pattern replacement count text result) :
      Replaced pattern replacement (count + 1) (pattern ++ text) (replacement ++ result)

namespace Replaced

theorem append_left (front : List Char) (h : Replaced pattern replacement count text result) :
    Replaced pattern replacement count (front ++ text) (front ++ result) := by
  induction front with
  | nil => exact h
  | cons c front ih => exact ih.keep c

theorem length_eq (h : Replaced pattern replacement count text result) :
    (result.length : Int) = text.length + count * (replacement.length - pattern.length) := by
  induction h with
  | nil => simp
  | keep c _ ih =>
    rw [List.length_cons, List.length_cons]
    omega
  | swap _ ih =>
    rw [List.length_append, List.length_append, Int.natCast_add, Int.natCast_add, Int.natCast_add,
      ih, Int.add_mul]
    omega

/-- At how many places two texts differ. -/
def mismatches (text other : List Char) : Nat :=
  (text.zip other).countP fun pair => pair.1 ≠ pair.2

theorem mismatches_pos (hlength : text.length = result.length) (hne : text ≠ result) :
    0 < mismatches text result := by
  by_contra hzero
  rw [mismatches, Nat.not_lt, Nat.le_zero, List.countP_eq_zero] at hzero
  refine hne (List.ext_getElem hlength fun index htext hresult => ?_)
  have hpair : (text[index], result[index]) ∈ text.zip result := by
    rw [← List.getElem_zip (h := by rw [List.length_zip]; omega)]
    exact List.getElem_mem _
  simpa using hzero _ hpair

/-- With as many characters in place of others, what differs comes from the replacements. -/
theorem mismatches_eq (hlength : pattern.length = replacement.length)
    (h : Replaced pattern replacement count text result) :
    mismatches text result = count * mismatches pattern replacement := by
  induction h with
  | nil => rw [mismatches, List.zip_nil_left, List.countP_nil, Nat.zero_mul]
  | keep c _ ih =>
    rw [mismatches, List.zip_cons_cons, List.countP_cons_of_neg (by simp), ← mismatches, ih]
  | swap _ ih =>
    rw [mismatches, List.zip_append hlength, List.countP_append, ← mismatches, ← mismatches, ih,
      Nat.succ_mul, Nat.add_comm]

/-- The texts tell how many occurrences have been replaced by something else. -/
theorem count_eq (hne : pattern ≠ replacement)
    (h : Replaced pattern replacement count text result)
    (hother : Replaced pattern replacement other text result) : count = other := by
  by_cases hlength : pattern.length = replacement.length
  · have hpos := mismatches_pos hlength hne
    exact Nat.eq_of_mul_eq_mul_right hpos
      ((mismatches_eq hlength h).symm.trans (mismatches_eq hlength hother))
  · -- each of them adds as much to the length
    have hadded : (replacement.length - pattern.length : Int) ≠ 0 := by omega
    have hlengths := h.length_eq.symm.trans hother.length_eq
    exact Int.natCast_inj.mp (Int.eq_of_mul_eq_mul_right hadded (Int.add_left_cancel hlengths))

theorem eq_of_same (h : Replaced pattern pattern count text result) : text = result := by
  induction h with
  | nil => rfl
  | keep c _ ih => rw [ih]
  | swap _ ih => rw [ih]

end Replaced

end Replacement

/-! Patterns that start with a mark and have it nowhere else cannot overlap. -/

section Marked

variable {mark : Char} {body replacement text result : List Char} {count : Nat}

theorem isPrefixOf_of_ne {c : Char} (h : mark ≠ c) :
    (mark :: body).isPrefixOf (c :: text) = false := by
  rw [List.isPrefixOf_cons_cons, beq_false_of_ne h, Bool.false_and]

theorem occurrences_append {front : List Char} (h : mark ∉ front) :
    occurrences (mark :: body) (front ++ text) = occurrences (mark :: body) text := by
  induction front with
  | nil => rfl
  | cons c front ih =>
    rw [List.mem_cons, not_or] at h
    rw [List.cons_append, occurrences_cons, isPrefixOf_of_ne h.1, ih h.2]
    rfl

/-- Of the places in a pattern, only its start is that of an occurrence. -/
theorem occurrences_self_append (hmark : mark ∉ body) :
    occurrences (mark :: body) (mark :: body ++ text) =
      occurrences (mark :: body) text + 1 := by
  rw [List.cons_append, occurrences_cons, occurrences_append hmark, if_pos (by simp)]

theorem replaceAll_self_append (text : List Char) :
    replaceAll (mark :: body) replacement (mark :: body ++ text) =
      replacement ++ replaceAll (mark :: body) replacement text := by
  have hdrop : (body ++ text).drop body.length = text := List.drop_left
  rw [List.cons_append, replaceAll, if_pos (by simp), List.length_cons, Nat.add_sub_cancel, hdrop]

theorem Replaced.count_le (hmark : mark ∉ body)
    (h : Replaced (mark :: body) replacement count text result) :
    count ≤ occurrences (mark :: body) text := by
  induction h with
  | nil => exact Nat.zero_le _
  | keep c _ ih =>
    rw [occurrences_cons]
    omega
  | swap _ ih =>
    rw [occurrences_self_append hmark]
    omega

/-- If no occurrence is left out, the text is the one with all of them replaced. -/
theorem Replaced.eq_replaceAll (hmark : mark ∉ body)
    (h : Replaced (mark :: body) replacement count text result)
    (hall : occurrences (mark :: body) text = count) :
    replaceAll (mark :: body) replacement text = result := by
  induction h with
  | nil => rw [replaceAll]
  | keep c h ih =>
    rw [occurrences_cons] at hall
    have hle := h.count_le hmark
    split at hall
    · omega
    · next hstart => rw [replaceAll, if_neg hstart, ih hall]
  | swap _ ih =>
    rw [occurrences_self_append hmark] at hall
    rw [replaceAll_self_append, ih (Nat.succ.inj hall)]

/-- All occurrences are replaced, one after the other. -/
theorem replaced_replaceAll (hmark : mark ∉ body) (replacement text : List Char) :
    Replaced (mark :: body) replacement (occurrences (mark :: body) text) text
      (replaceAll (mark :: body) replacement text) := by
  fun_induction replaceAll (mark :: body) replacement text with
  | case1 => exact .nil
  | case2 c rest hstart ih =>
    obtain ⟨behind, hbehind⟩ := List.isPrefixOf_iff_prefix.mp hstart
    rw [List.cons_append] at hbehind
    obtain ⟨rfl, rfl⟩ := List.cons.inj hbehind
    rw [List.length_cons, Nat.add_sub_cancel, List.drop_left] at ih ⊢
    rw [← List.cons_append, occurrences_self_append hmark]
    exact ih.swap
  | case3 c rest hstart ih =>
    rw [occurrences_cons, if_neg hstart]
    exact ih.keep c

/-- Replacing all occurrences comes to replacing some of them if these are all, or if they are
replaced by themselves. -/
theorem Replaced.replaceAll_eq_iff (hmark : mark ∉ body)
    (h : Replaced (mark :: body) replacement count text result) :
    replaceAll (mark :: body) replacement text = result ↔
      occurrences (mark :: body) text = count ∨ replacement = mark :: body := by
  have hreplaced := replaced_replaceAll hmark replacement text
  constructor
  · rintro rfl
    by_cases hsame : replacement = mark :: body
    · exact .inr hsame
    · exact .inl (hreplaced.count_eq (Ne.symm hsame) h)
  · rintro (hall | rfl)
    · exact h.eq_replaceAll hmark hall
    · exact hreplaced.eq_of_same.symm.trans h.eq_of_same

end Marked

namespace Rule

variable {arguments before : List String} {argument : String} {text : List Char} {index other : Nat}

/-- The argument that a text starts with the hole of, and its index. -/
def hole? (arguments : List String) (text : List Char) : Option (String × Nat) :=
  arguments.zipIdx.find? fun hole => (placeholder hole.2).isPrefixOf text

/-- A text with an argument in place of each of its holes. What the arguments bring along has no
holes. -/
def inserted (arguments : List String) : List Char → List Char
  | [] => []
  | c :: rest =>
    match hole? arguments (c :: rest) with
    | some (argument, index) =>
      argument.toList ++ inserted arguments (rest.drop ((placeholder index).length - 1))
    | none => c :: inserted arguments rest
termination_by chars => chars.length

/-- What follows the brace that a hole starts with. -/
def holeRest (index : Nat) : List Char :=
  (toString index).toList ++ ['\x7d']

theorem placeholder_eq (index : Nat) : placeholder index = '\x7b' :: holeRest index :=
  rfl

theorem brace_not_mem_holeRest : '\x7b' ∉ holeRest index := by
  intro h
  rcases List.mem_append.mp h with h | h
  · exact Text.not_mem_toString (by decide) index h
  · exact absurd (List.mem_singleton.mp h) (by decide)

/-- A text starts with one hole only. -/
theorem placeholder_append_inj {behind tail : List Char}
    (h : placeholder index ++ behind = placeholder other ++ tail) : index = other := by
  have hdigits : ∀ number : Nat, '\x7d' ∉ (toString number).toList :=
    Text.not_mem_toString (by decide)
  rw [placeholder_eq, placeholder_eq, List.cons_append, List.cons_append, List.cons.injEq, holeRest,
    holeRest, List.append_assoc, List.append_assoc] at h
  have hfirst := (Text.append_cons_inj_first (hdigits index) (hdigits other)).mp h.2
  exact Text.toString_number_inj.mp (String.toList_inj.mp hfirst.1)

theorem hole?_concat :
    hole? (before ++ [argument]) text =
      (hole? before text).or
        (if (placeholder before.length).isPrefixOf text then some (argument, before.length)
          else none) := by
  rw [hole?, List.zipIdx_append, List.find?_append, hole?]
  simp [List.find?_singleton]

theorem eq_append_of_hole? (h : hole? arguments text = some (argument, index)) :
    index < arguments.length ∧ ∃ behind, text = placeholder index ++ behind := by
  have hmem := List.mem_of_find?_eq_some h
  have hprefix := List.find?_some h
  obtain ⟨behind, hbehind⟩ := List.isPrefixOf_iff_prefix.mp hprefix
  exact ⟨by simpa using List.snd_lt_of_mem_zipIdx hmem, behind, hbehind.symm⟩

theorem inserted_hole {behind : List Char}
    (h : hole? arguments (placeholder index ++ behind) = some (argument, index)) :
    inserted arguments (placeholder index ++ behind) =
      argument.toList ++ inserted arguments behind := by
  have hdrop : (holeRest index ++ behind).drop (holeRest index).length = behind := List.drop_left
  rw [placeholder_eq, List.cons_append] at h ⊢
  rw [inserted, h]
  exact congrArg (argument.toList ++ inserted arguments ·) hdrop

theorem inserted_cons {c : Char} (h : hole? arguments (c :: text) = none) :
    inserted arguments (c :: text) = c :: inserted arguments text := by
  rw [inserted, h]

/-- No holes start where there are no braces. -/
theorem inserted_append {front : List Char} (h : '\x7b' ∉ front) :
    inserted arguments (front ++ text) = front ++ inserted arguments text := by
  induction front with
  | nil => rfl
  | cons c front ih =>
    rw [List.mem_cons, not_or] at h
    have hnone : hole? arguments (c :: (front ++ text)) = none := by
      rw [hole?, List.find?_eq_none]
      intro hole _
      rw [placeholder_eq, isPrefixOf_of_ne h.1]
      exact Bool.false_ne_true
    rw [List.cons_append, inserted_cons hnone, ih h.2, List.cons_append]

theorem inserted_nil : inserted [] text = text := by
  induction text with
  | nil => rw [inserted]
  | cons c text ih => rw [inserted_cons rfl, ih]

/-- Within the hole of an argument, and where it starts, there is no hole of another one. -/
theorem occurrences_hole {behind : List Char} (h : index ≠ other) :
    occurrences (placeholder other) (placeholder index ++ behind) =
      occurrences (placeholder other) behind := by
  have hstart : ¬(placeholder other).isPrefixOf (placeholder index ++ behind) = true := by
    intro hprefix
    obtain ⟨tail, htail⟩ := List.isPrefixOf_iff_prefix.mp hprefix
    exact h (placeholder_append_inj htail.symm)
  rw [placeholder_eq index, List.cons_append] at hstart ⊢
  rw [occurrences_cons, if_neg hstart, Nat.add_zero, placeholder_eq,
    occurrences_append brace_not_mem_holeRest]

/-- With one more argument, what changes are the holes of it. -/
theorem replaced_inserted (before : List String) (argument : String) (text : List Char) :
    Replaced (placeholder before.length) argument.toList
      (occurrences (placeholder before.length) text) (inserted before text)
      (inserted (before ++ [argument]) text) := by
  fun_induction inserted (before ++ [argument]) text with
  | case1 =>
    rw [inserted]
    exact .nil
  | case2 c rest found index hhole ih =>
    obtain ⟨-, behind, hbehind⟩ := eq_append_of_hole? hhole
    have hrest : rest.drop ((placeholder index).length - 1) = behind := by
      rw [placeholder_eq, List.cons_append, List.cons.injEq] at hbehind
      rw [hbehind.2]
      exact List.drop_left
    rw [hbehind] at hhole ⊢
    rw [hrest] at ih ⊢
    rw [hole?_concat] at hhole
    cases hbefore : hole? before (placeholder index ++ behind) with
    | some hole =>
      -- the hole of an earlier argument
      rw [hbefore, Option.some_or] at hhole
      obtain rfl := Option.some.inj hhole
      have hlt := (eq_append_of_hole? hbefore).1
      rw [inserted_hole hbefore, occurrences_hole (by omega)]
      exact ih.append_left found.toList
    | none =>
      -- the hole of the last argument, which the others leave as it is
      rw [hbefore, Option.none_or, Option.ite_none_right_eq_some] at hhole
      obtain ⟨rfl, rfl⟩ := Prod.mk.inj (Option.some.inj hhole.2)
      have hkept : inserted before (placeholder before.length ++ behind) =
          placeholder before.length ++ inserted before behind := by
        rw [placeholder_eq, List.cons_append] at hbefore ⊢
        rw [inserted_cons hbefore, inserted_append brace_not_mem_holeRest, List.cons_append]
      rw [hkept, placeholder_eq, occurrences_self_append brace_not_mem_holeRest]
      exact ih.swap
  | case3 c rest hhole ih =>
    rw [hole?_concat, Option.or_eq_none_iff] at hhole
    obtain ⟨hbefore, hlast⟩ := hhole
    rw [inserted_cons hbefore, occurrences_cons, if_neg (by simpa using hlast)]
    exact ih.keep c

/-- One more argument is put in place of its own holes if no more of them have come up with the
earlier ones. -/
theorem replaceAll_inserted_iff (before : List String) (argument : String) (text : List Char) :
    replaceAll (placeholder before.length) argument.toList (inserted before text) =
        inserted (before ++ [argument]) text ↔
      occurrences (placeholder before.length) (inserted before text) =
          occurrences (placeholder before.length) text ∨
        argument.toList = placeholder before.length :=
  (replaced_inserted before argument text).replaceAll_eq_iff brace_not_mem_holeRest

theorem fill_concat (index : Nat) (text : List Char) :
    fill index text (before ++ [argument]) =
      replaceAll (placeholder (index + before.length)) argument.toList
        (fill index text before) := by
  induction before generalizing index text with
  | nil => rfl
  | cons first before ih =>
    rw [List.cons_append, fill, ih, fill, List.length_cons, Nat.add_assoc, Nat.add_comm 1]

theorem fill_single (text : List Char) (argument : String) :
    fill 0 text [argument] = inserted [argument] text := by
  have hfirst := (replaceAll_inserted_iff [] argument text).mpr (.inl (by rw [inserted_nil]))
  rwa [inserted_nil] at hfirst

/-- The message of a rule with as many arguments as one likes is its template with the arguments in
place of their holes, if no argument is put in place of what earlier arguments have brought along,
and only then. An argument that is the text of its own hole makes no difference. With two arguments,
it is the second one that decides. -/
theorem report_inserted_iff (rule : Rule) (location : Option Location) (arguments : List String) :
    ((∀ given, given <+: arguments →
      (rule.report location given).message =
        String.ofList (inserted given rule.template.toList)) ↔
    ∀ before argument, before ++ [argument] <+: arguments →
      occurrences (placeholder before.length) (inserted before rule.template.toList) =
          occurrences (placeholder before.length) rule.template.toList ∨
        argument.toList = placeholder before.length) ∧
    ∀ first second,
      (rule.report location [first, second]).message =
        String.ofList (inserted [first, second] rule.template.toList) ↔
      occurrences (placeholder 1) (inserted [first] rule.template.toList) =
          occurrences (placeholder 1) rule.template.toList ∨
        second.toList = placeholder 1 := by
  simp only [report, String.ofList_inj]
  refine ⟨⟨fun h before argument hprefix => ?_, fun h given => ?_⟩, fun first second => ?_⟩
  · have hbefore := h before ((List.prefix_append before [argument]).trans hprefix)
    have hlast := h (before ++ [argument]) hprefix
    rw [fill_concat, Nat.zero_add, hbefore] at hlast
    exact (replaceAll_inserted_iff before argument _).mp hlast
  · induction given using List.reverseRecOn with
    | nil =>
      intro _
      rw [fill, inserted_nil]
    | append_singleton before argument ih =>
      intro hprefix
      rw [fill_concat, Nat.zero_add, ih ((List.prefix_append before [argument]).trans hprefix)]
      exact (replaceAll_inserted_iff before argument _).mpr (h before argument hprefix)
  · have hfill : fill 0 rule.template.toList [first, second] =
        replaceAll (placeholder 1) second.toList (inserted [first] rule.template.toList) := by
      rw [← fill_single]
      rfl
    rw [hfill]
    exact replaceAll_inserted_iff [first] second rule.template.toList

/-- Where a path has the hole of the second argument in it, the message has what the parser says in
the middle of the path. -/
theorem report_path_hole :
    let path := "App/\x7b1\x7dEndpoints.csv"
    let said := "EOF while parsing a value at line 1 column 0"
    let diagnostic := endpointsExtra.report (some { path := path }) [path, said]
    EndpointsContext.read ⟨path, "Extra:"⟩ = .error diagnostic ∧
      diagnostic.message =
        "Couldn't parse 'Extra' metadata in endpoints file 'App/" ++ said ++ "Endpoints.csv': " ++
          said ∧
      diagnostic.message ≠
        String.ofList (inserted [path, said] endpointsExtra.template.toList) :=
  ⟨by decide +kernel, by decide +kernel, by decide +kernel⟩

end Rule

end SourceGen
