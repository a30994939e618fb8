import SourceGen.Resource.CompositeFormat
import Mathlib.Data.Nat.Digits.Defs

/-! The grammar of composite formats. A text can be read exactly if the grammar derives it, and what
is read from it is what the grammar says. -/

namespace SourceGen.CompositeFormat

/-- The number that decimal digits spell, the first of them counting most. -/
def spelled (digits : List Char) : Nat :=
  Nat.ofDigits 10 (digits.reverse.map fun c => c.toNat - '0'.toNat)

/-- Some spaces, or none. -/
def spaces (count : Nat) : List Char :=
  List.replicate count ' '

/-- Decimal digits, at least one, that spell a number below a million. -/
structure Numeral (chars : List Char) (value : Nat) : Prop where
  nonempty : chars ≠ []
  digits : ∀ c ∈ chars, c.isDigit = true
  value_eq : value = spelled chars
  bounded : value < 1000000

/-- A width with its sign. -/
inductive Width : List Char → Int → Prop
  | unsigned {chars : List Char} {value : Nat} (numeral : Numeral chars value) :
    Width chars value
  | signed {chars : List Char} {value : Nat} (numeral : Numeral chars value) :
    Width ('-' :: chars) (-value)

/-- The alignment of a hole, which may be left out. -/
inductive Alignment : List Char → Int → Prop
  | absent : Alignment [] 0
  | present {chars : List Char} {value : Int} (before after : Nat) (width : Width chars value) :
    Alignment (',' :: (spaces before ++ (chars ++ spaces after))) value

/-- The format of a hole, which may be left out and has no braces. -/
inductive ItemFormat : List Char → Option String → Prop
  | absent : ItemFormat [] none
  | present {chars : List Char} (plain : ∀ c ∈ chars, isBrace c = false) :
    ItemFormat (':' :: chars) (some (String.ofList chars))

/-- A hole with its braces. Spaces may stand behind the number of its argument. -/
inductive Hole : List Char → FormatHole → Prop
  | filled {digits padding text : List Char} {index : Nat} {alignment : Int}
      {format : Option String} (numeral : Numeral digits index) (count : Nat)
      (aligned : Alignment padding alignment) (formatted : ItemFormat text format) :
    Hole ('\x7b' :: (digits ++ (spaces count ++ (padding ++ (text ++ ['\x7d'])))))
      ⟨index, alignment, format⟩

/-- Literal text with its braces doubled, and the text that it stands for. -/
inductive Literal : List Char → List Char → Prop
  | empty : Literal [] []
  | plain {c : Char} {chars text : List Char} (notBrace : isBrace c = false)
      (rest : Literal chars text) : Literal (c :: chars) (c :: text)
  | doubled {c : Char} {chars text : List Char} (brace : isBrace c = true)
      (rest : Literal chars text) : Literal (c :: c :: chars) (c :: text)

/-- Literals and holes in turn, a literal at either end. -/
inductive Composite : List Char → List FormatSegment → Prop
  | ended {chars text : List Char} (literal : Literal chars text) :
    Composite chars [.literal (String.ofList text)]
  | interrupted {front text inside chars : List Char} {item : FormatHole}
      {parts : List FormatSegment} (literal : Literal front text) (hole : Hole inside item)
      (rest : Composite chars parts) :
    Composite (front ++ (inside ++ chars)) (.literal (String.ofList text) :: .hole item :: parts)

/-- Whether the holes of a format take a number of arguments: one more than the largest of their
numbers, or none if there are no holes. -/
structure TakesArguments (parts : List FormatSegment) (count : Nat) : Prop where
  below : ∀ item, .hole item ∈ parts → item.index < count
  reached : count ≠ 0 → ∃ item, .hole item ∈ parts ∧ item.index + 1 = count

section Numbers

/-- The number that digits spell behind the digits of `value`. -/
private def continued (value : Nat) (chars : List Char) : Nat :=
  chars.foldl (fun seen c => seen * 10 + (c.toNat - '0'.toNat)) value

private theorem continued_eq (value : Nat) (chars : List Char) :
    continued value chars = value * 10 ^ chars.length + spelled chars := by
  induction chars generalizing value with
  | nil => simp [continued, spelled]
  | cons c rest ih =>
    have hstep :
        continued value (c :: rest) = continued (value * 10 + (c.toNat - '0'.toNat)) rest := rfl
    rw [hstep, ih]
    simp only [spelled, List.reverse_cons, List.map_append, List.map_cons, List.map_nil,
      Nat.ofDigits_append, Nat.ofDigits_singleton, List.length_map, List.length_reverse,
      List.length_cons]
    ring

private theorem le_continued (value : Nat) (chars : List Char) : value ≤ continued value chars := by
  rw [continued_eq]
  exact Nat.le_add_right_of_le (Nat.le_mul_of_pos_right _ (by positivity))

private theorem digits_sound {value n : Nat} {chars rest : List Char} (hv : value < limit)
    (h : digits value chars = .ok (n, rest)) :
    ∃ front, chars = front ++ rest ∧ (∀ c ∈ front, c.isDigit = true) ∧
      n = continued value front ∧ n < limit := by
  fun_induction digits value chars with
  | case1 => simp at h
  | case2 value c chars hd =>
    obtain ⟨rfl, rfl⟩ := Prod.mk.inj (Except.ok.inj h)
    exact ⟨[], rfl, by simp, rfl, hv⟩
  | case3 value c chars digit hd hlt ih =>
    obtain ⟨front, rfl, hall, rfl, hn⟩ := ih hlt h
    obtain ⟨hc, rfl⟩ : c.isDigit = true ∧ c.toNat - 48 = digit := by
      simpa [Text.digitValue?] using hd
    exact ⟨c :: front, rfl, by simpa [hc] using hall, rfl, hn⟩
  | case4 => simp at h

private theorem digits_complete {front : List Char} (hall : ∀ c ∈ front, c.isDigit = true)
    {value : Nat} (hn : continued value front < limit) {next : Char}
    (hnext : next.isDigit = false) (rest : List Char) :
    digits value (front ++ next :: rest) = .ok (continued value front, next :: rest) := by
  induction front generalizing value with
  | nil => simp [digits, Text.digitValue?, hnext, continued]
  | cons c front ih =>
    have hc : Text.digitValue? c = some (c.toNat - 48) := by
      simp [Text.digitValue?, hall c (by simp)]
    -- a number that stays below the limit was below it after each of its digits
    have hlt : value * 10 + (c.toNat - 48) < limit := lt_of_le_of_lt (le_continued _ front) hn
    simp only [List.cons_append, digits, hc, if_pos hlt]
    exact ih (fun d hd => hall d (by simp [hd])) hn

private theorem digitValue?_eq_some {c : Char} {digit : Nat}
    (h : Text.digitValue? c = some digit) :
    c.isDigit = true ∧ digit = c.toNat - 48 ∧ digit < limit := by
  unfold Text.digitValue? at h
  split at h
  · next hc =>
    obtain rfl := Option.some.inj h
    have hle : c.toNat ≤ 57 := (Char.isDigit_iff_toNat.mp hc).2
    exact ⟨hc, rfl, by unfold limit; omega⟩
  · simp at h

private theorem number_sound {missing : FormatFault} {n : Nat} {chars rest : List Char}
    (h : number missing chars = .ok (n, rest)) :
    ∃ front, chars = front ++ rest ∧ Numeral front n := by
  cases chars with
  | nil => simp [number] at h
  | cons c chars =>
    cases hd : Text.digitValue? c with
    | none => simp [number, hd] at h
    | some digit =>
      obtain ⟨hc, rfl, hdigit⟩ := digitValue?_eq_some hd
      simp only [number, hd] at h
      obtain ⟨front, rfl, hall, rfl, hlt⟩ := digits_sound hdigit h
      refine ⟨c :: front, rfl, by simp, by simpa [hc] using hall, ?_, hlt⟩
      have hfirst : continued (c.toNat - 48) front = continued 0 (c :: front) := by
        simp [continued]
      rw [hfirst, continued_eq, Nat.zero_mul, Nat.zero_add]

private theorem number_complete {front : List Char} {n : Nat} (h : Numeral front n) {next : Char}
    (hnext : next.isDigit = false) (missing : FormatFault) (rest : List Char) :
    number missing (front ++ next :: rest) = .ok (n, next :: rest) := by
  obtain ⟨hne, hall, hn, hlt⟩ := h
  cases front with
  | nil => exact absurd rfl hne
  | cons c front =>
    have hc : Text.digitValue? c = some (c.toNat - 48) := by
      simp [Text.digitValue?, hall c (by simp)]
    have hfirst : n = continued (c.toNat - 48) front := by
      rw [hn, ← Nat.zero_add (spelled _), ← Nat.zero_mul (10 ^ (c :: front).length),
        ← continued_eq]
      simp [continued]
    simp only [List.cons_append, number, hc]
    rw [hfirst] at hlt ⊢
    exact digits_complete (fun d hd => hall d (by simp [hd])) hlt hnext rest

end Numbers

section Holes

private theorem skipSpaces_sound {chars rest : List Char} (h : skipSpaces chars = .ok rest) :
    ∃ count, chars = spaces count ++ rest := by
  fun_induction skipSpaces chars with
  | case1 => simp at h
  | case2 chars ih =>
    obtain ⟨count, rfl⟩ := ih h
    exact ⟨count + 1, rfl⟩
  | case3 c chars hc => exact ⟨0, Except.ok.inj h⟩

private theorem skipSpaces_complete (count : Nat) {next : Char} (hnext : next ≠ ' ')
    (rest : List Char) : skipSpaces (spaces count ++ next :: rest) = .ok (next :: rest) := by
  induction count with
  | zero => simp [spaces, skipSpaces, hnext]
  | succ count ih => simpa [spaces, List.replicate_succ, skipSpaces] using ih

private theorem width_sound {value : Int} {chars rest : List Char}
    (h : width chars = .ok (value, rest)) :
    ∃ front, chars = front ++ rest ∧ Width front value := by
  unfold width at h
  split at h
  · split at h
    · simp at h
    · next hn =>
      obtain ⟨rfl, rfl⟩ := Prod.mk.inj (Except.ok.inj h)
      obtain ⟨front, rfl, hnum⟩ := number_sound hn
      exact ⟨'-' :: front, rfl, .signed hnum⟩
  · split at h
    · simp at h
    · next hn =>
      obtain ⟨rfl, rfl⟩ := Prod.mk.inj (Except.ok.inj h)
      obtain ⟨front, rfl, hnum⟩ := number_sound hn
      exact ⟨front, rfl, .unsigned hnum⟩

private theorem width_complete {front : List Char} {value : Int} (h : Width front value)
    {next : Char} (hnext : next.isDigit = false) (rest : List Char) :
    width (front ++ next :: rest) = .ok (value, next :: rest) := by
  cases h with
  | signed hnum => simp [width, number_complete hnum hnext]
  | unsigned hnum =>
    have hread := number_complete hnum hnext .expectedDigit rest
    unfold width
    split
    · next chars he =>
      -- digits do not begin with a minus sign
      exfalso
      obtain ⟨c, tail, rfl⟩ := List.exists_cons_of_ne_nil hnum.nonempty
      obtain ⟨rfl, -⟩ := List.cons.inj he
      simpa using hnum.digits '-' (by simp)
    · rw [hread]

private theorem alignment_sound {value : Int} {chars rest : List Char}
    (h : alignment chars = .ok (value, rest)) :
    ∃ front, chars = front ++ rest ∧ Alignment front value := by
  unfold alignment at h
  split at h
  · split at h
    · simp at h
    · next hbefore =>
      split at h
      · simp at h
      · next hw =>
        split at h
        · simp at h
        · next hafter =>
          obtain ⟨rfl, rfl⟩ := Prod.mk.inj (Except.ok.inj h)
          obtain ⟨before, rfl⟩ := skipSpaces_sound hbefore
          obtain ⟨front, rfl, hwidth⟩ := width_sound hw
          obtain ⟨after, rfl⟩ := skipSpaces_sound hafter
          exact ⟨_, by simp, .present before after hwidth⟩
  · obtain ⟨rfl, rfl⟩ := Prod.mk.inj (Except.ok.inj h)
    exact ⟨[], rfl, .absent⟩

private theorem Width.head {chars : List Char} {value : Int} (h : Width chars value) :
    ∃ c rest, chars = c :: rest ∧ c ≠ ' ' := by
  cases h with
  | signed => exact ⟨_, _, rfl, by decide⟩
  | unsigned hnum =>
    obtain ⟨c, rest, rfl⟩ := List.exists_cons_of_ne_nil hnum.nonempty
    refine ⟨c, rest, rfl, ?_⟩
    rintro rfl
    simpa using hnum.digits ' ' (by simp)

/-- What comes behind digits and spaces does not begin with a digit. -/
private theorem spaces_head (count : Nat) {next : Char} (hnext : next.isDigit = false)
    (rest : List Char) :
    ∃ c tail, spaces count ++ next :: rest = c :: tail ∧ c.isDigit = false := by
  cases count with
  | zero => exact ⟨next, rest, rfl, hnext⟩
  | succ count => exact ⟨' ', spaces count ++ next :: rest, rfl, by decide⟩

private theorem alignment_complete {front : List Char} {value : Int} (h : Alignment front value)
    {next : Char} (hnext : next.isDigit = false) (hspace : next ≠ ' ') (hcomma : next ≠ ',')
    (rest : List Char) : alignment (front ++ next :: rest) = .ok (value, next :: rest) := by
  cases h with
  | absent => simp [alignment, hcomma]
  | @present chars value before after hwidth =>
    obtain ⟨first, inner, hchars, hfirst⟩ := hwidth.head
    obtain ⟨behind, tail, hbehind, hdigit⟩ := spaces_head after hnext rest
    have hbefore : skipSpaces (spaces before ++ (chars ++ behind :: tail)) =
        .ok (chars ++ behind :: tail) := by
      rw [hchars]
      exact skipSpaces_complete before hfirst _
    have hafter : skipSpaces (behind :: tail) = .ok (next :: rest) := by
      rw [← hbehind]
      exact skipSpaces_complete after hspace rest
    simp only [List.cons_append, List.append_assoc, alignment, hbehind, hbefore,
      width_complete hwidth hdigit, hafter]

private theorem formatText_sound {text chars rest : List Char}
    (h : formatText chars = .ok (text, rest)) :
    chars = text ++ '\x7d' :: rest ∧ ∀ c ∈ text, isBrace c = false := by
  fun_induction formatText chars generalizing text with
  | case1 => simp at h
  | case2 =>
    obtain ⟨rfl, rfl⟩ := Prod.mk.inj (Except.ok.inj h)
    exact ⟨rfl, by simp⟩
  | case3 => simp at h
  | case4 => simp at h
  | case5 c chars hclose hopen inner remaining hread ih =>
    obtain ⟨rfl, rfl⟩ := Prod.mk.inj (Except.ok.inj h)
    obtain ⟨rfl, hall⟩ := ih hread
    exact ⟨rfl, by simpa [isBrace, hclose, hopen] using hall⟩

private theorem formatText_complete {text : List Char} (hall : ∀ c ∈ text, isBrace c = false)
    (rest : List Char) : formatText (text ++ '\x7d' :: rest) = .ok (text, rest) := by
  induction text with
  | nil => simp [formatText]
  | cons c text ih =>
    have hc : ¬c = '\x7b' ∧ ¬c = '\x7d' := by simpa [isBrace] using hall c (by simp)
    simp [formatText, hc.1, hc.2, ih fun d hd => hall d (by simp [hd])]

private theorem holeEnd_sound {format : Option String} {chars rest : List Char}
    (h : holeEnd chars = .ok (format, rest)) :
    ∃ front, chars = front ++ '\x7d' :: rest ∧ ItemFormat front format := by
  cases chars with
  | nil => simp [holeEnd] at h
  | cons c chars =>
    by_cases hclose : c = '\x7d'
    · subst hclose
      obtain ⟨rfl, rfl⟩ := Prod.mk.inj (Except.ok.inj h)
      exact ⟨[], rfl, .absent⟩
    · by_cases hcolon : c = ':'
      · subst hcolon
        cases hread : formatText chars with
        | error fault => simp [holeEnd, hread] at h
        | ok found =>
          obtain ⟨rfl, rfl⟩ : some (String.ofList found.1) = format ∧ found.2 = rest := by
            simpa [holeEnd, hread] using h
          obtain ⟨rfl, hall⟩ := formatText_sound hread
          exact ⟨':' :: found.1, rfl, .present hall⟩
      · simp [holeEnd, hclose, hcolon] at h

private theorem holeEnd_complete {front : List Char} {format : Option String}
    (h : ItemFormat front format) (rest : List Char) :
    holeEnd (front ++ '\x7d' :: rest) = .ok (format, rest) := by
  cases h with
  | absent => simp [holeEnd]
  | present hall => simp [holeEnd, formatText_complete hall]

private theorem hole_sound {item : FormatHole} {chars rest : List Char}
    (h : hole chars = .ok (item, rest)) :
    ∃ front, chars = front ++ rest ∧ Hole ('\x7b' :: front) item := by
  unfold hole at h
  split at h
  · simp at h
  · next hnum =>
    split at h
    · simp at h
    · next hspaces =>
      split at h
      · simp at h
      · next halign =>
        split at h
        · simp at h
        · next hend =>
          obtain ⟨rfl, rfl⟩ := Prod.mk.inj (Except.ok.inj h)
          obtain ⟨digits, rfl, hdigits⟩ := number_sound hnum
          obtain ⟨count, rfl⟩ := skipSpaces_sound hspaces
          obtain ⟨padding, rfl, hpadding⟩ := alignment_sound halign
          obtain ⟨text, rfl, htext⟩ := holeEnd_sound hend
          exact ⟨_, by simp, .filled hdigits count hpadding htext⟩

/-- What stands in a hole behind the number and its spaces begins with a mark. -/
private theorem mark_head {padding text : List Char} {value : Int} {format : Option String}
    (hp : Alignment padding value) (ht : ItemFormat text format) (rest : List Char) :
    ∃ c tail, padding ++ (text ++ '\x7d' :: rest) = c :: tail ∧ c.isDigit = false ∧ c ≠ ' ' := by
  cases hp with
  | present => exact ⟨',', _, rfl, by decide, by decide⟩
  | absent =>
    cases ht with
    | present => exact ⟨':', _, rfl, by decide, by decide⟩
    | absent => exact ⟨'\x7d', rest, rfl, by decide, by decide⟩

private theorem hole_complete {front : List Char} {item : FormatHole}
    (h : Hole ('\x7b' :: front) item) (rest : List Char) :
    hole (front ++ rest) = .ok (item, rest) := by
  cases h with
  | @filled digits padding text index value format hnum count hpadding htext =>
    -- the digits and the spaces both end where the text behind them begins with something else
    obtain ⟨mark, tail, hmark, hdigit, hspace⟩ := mark_head hpadding htext rest
    obtain ⟨behind, left, hbehind, hleft⟩ := spaces_head count hdigit tail
    have hskip : skipSpaces (behind :: left) = .ok (mark :: tail) := by
      rw [← hbehind]
      exact skipSpaces_complete count hspace tail
    have halign : alignment (mark :: tail) = .ok (value, text ++ '\x7d' :: rest) := by
      rw [← hmark]
      cases htext with
      | absent => exact alignment_complete hpadding (by decide) (by decide) (by decide) rest
      | present => exact alignment_complete hpadding (by decide) (by decide) (by decide) _
    have hshape : digits ++ (spaces count ++ (padding ++ (text ++ ['\x7d']))) ++ rest =
        digits ++ behind :: left := by
      rw [← hbehind, ← hmark]
      simp
    simp only [hole, hshape, number_complete hnum hleft, hskip, halign, holeEnd_complete htext]

end Holes

section Literals

private theorem literal_plain {c : Char} (hc : isBrace c = false) {chars text : List Char}
    {remaining : Option (List Char)} (h : literal chars = .ok (text, remaining)) :
    literal (c :: chars) = .ok (c :: text, remaining) := by
  cases chars with
  | nil =>
    obtain ⟨rfl, rfl⟩ := Prod.mk.inj (Except.ok.inj h)
    simp [literal, hc]
  | cons d chars => simp [literal, hc, h]

private theorem literal_doubled {c : Char} (hc : isBrace c = true) {chars text : List Char}
    {remaining : Option (List Char)} (h : literal chars = .ok (text, remaining)) :
    literal (c :: c :: chars) = .ok (c :: text, remaining) := by
  simp [literal, hc, h]

private theorem literal_sound {text chars : List Char} {remaining : Option (List Char)}
    (h : literal chars = .ok (text, remaining)) :
    ∃ front, Literal front text ∧
      chars = front ++ (remaining.map ('\x7b' :: ·)).getD [] := by
  fun_induction literal chars generalizing text with
  | case1 =>
    obtain ⟨rfl, rfl⟩ := Prod.mk.inj (Except.ok.inj h)
    exact ⟨[], .empty, rfl⟩
  | case2 => simp at h
  | case3 c hc =>
    obtain ⟨rfl, rfl⟩ := Prod.mk.inj (Except.ok.inj h)
    exact ⟨[c], .plain (by simpa using hc) .empty, rfl⟩
  | case4 => simp at h
  | case5 c chars inner left hread hc ih =>
    obtain ⟨rfl, rfl⟩ := Prod.mk.inj (Except.ok.inj h)
    obtain ⟨front, hfront, rfl⟩ := ih hread
    exact ⟨c :: c :: front, .doubled hc hfront, rfl⟩
  | case6 d chars =>
    obtain ⟨rfl, rfl⟩ := Prod.mk.inj (Except.ok.inj h)
    exact ⟨[], .empty, rfl⟩
  | case7 => simp at h
  | case8 => simp at h
  | case9 c d chars hc inner left hread ih =>
    obtain ⟨rfl, rfl⟩ := Prod.mk.inj (Except.ok.inj h)
    obtain ⟨front, hfront, hrest⟩ := ih hread
    exact ⟨c :: front, .plain (by simpa using hc) hfront, by rw [hrest]; rfl⟩

private theorem literal_complete {front text : List Char} (h : Literal front text)
    {chars : List Char} {remaining : Option (List Char)}
    (hrest : literal chars = .ok ([], remaining)) :
    literal (front ++ chars) = .ok (text, remaining) := by
  induction h with
  | empty => exact hrest
  | plain hc _ ih => exact literal_plain hc ih
  | doubled hc _ ih => exact literal_doubled hc ih

end Literals

private theorem segments_sound {chars : List Char} {parts : List FormatSegment}
    (h : segments chars = .ok parts) : Composite chars parts := by
  fun_induction segments chars generalizing parts with
  | case1 => simp at h
  | case2 chars text hread =>
    obtain rfl := Except.ok.inj h
    obtain ⟨front, hfront, rfl⟩ := literal_sound hread
    simpa using Composite.ended hfront
  | case3 => simp at h
  | case4 => simp at h
  | case5 chars text inside hread item rest hhole inner hinner ih =>
    obtain rfl := Except.ok.inj h
    obtain ⟨front, hfront, rfl⟩ := literal_sound hread
    obtain ⟨filled, rfl, hfilled⟩ := hole_sound hhole
    exact .interrupted hfront hfilled (ih hinner)

/-- A literal ends where a hole begins. -/
private theorem literal_hole {front text inside : List Char} {item : FormatHole}
    (hl : Literal front text) (hh : Hole ('\x7b' :: inside) item) (chars : List Char) :
    literal (front ++ ('\x7b' :: inside ++ chars)) = .ok (text, some (inside ++ chars)) := by
  refine literal_complete hl ?_
  cases hh with
  | @filled digits padding tail index value format hnum =>
    obtain ⟨c, rest, rfl⟩ := List.exists_cons_of_ne_nil hnum.nonempty
    have hc : c ≠ '\x7b' := by
      rintro rfl
      simpa using hnum.digits '\x7b' (by simp)
    simp [literal, isBrace, hc]

private theorem segments_ended {chars text : List Char} (h : literal chars = .ok (text, none)) :
    segments chars = .ok [.literal (String.ofList text)] := by
  rw [segments]
  split
  · simp_all
  · next hread =>
    rw [hread] at h
    obtain ⟨rfl, -⟩ := Prod.mk.inj (Except.ok.inj h)
    rfl
  · simp_all

private theorem segments_interrupted {chars text inside rest : List Char} {item : FormatHole}
    {parts : List FormatSegment} (hread : literal chars = .ok (text, some inside))
    (hfilled : hole inside = .ok (item, rest)) (hrest : segments rest = .ok parts) :
    segments chars = .ok (.literal (String.ofList text) :: .hole item :: parts) := by
  rw [segments]
  split
  · simp_all
  · simp_all
  · next hfound =>
    rw [hfound] at hread
    obtain ⟨rfl, hinside⟩ := Prod.mk.inj (Except.ok.inj hread)
    obtain rfl := Option.some.inj hinside
    split
    · simp_all
    · next hitem =>
      rw [hitem] at hfilled
      obtain ⟨rfl, rfl⟩ := Prod.mk.inj (Except.ok.inj hfilled)
      rw [hrest]

private theorem segments_complete {chars : List Char} {parts : List FormatSegment}
    (h : Composite chars parts) : segments chars = .ok parts := by
  induction h with
  | @ended chars text hliteral =>
    have hread : literal (chars ++ []) = .ok (text, none) := literal_complete hliteral rfl
    rw [List.append_nil] at hread
    exact segments_ended hread
  | @interrupted front text inside chars item parts hliteral hhole _ ih =>
    obtain ⟨inner, rfl⟩ : ∃ inner, inside = '\x7b' :: inner := by
      cases hhole
      exact ⟨_, rfl⟩
    exact segments_interrupted (literal_hole hliteral hhole chars) (hole_complete hhole chars) ih

private theorem Composite.index_lt {chars : List Char} {parts : List FormatSegment}
    (h : Composite chars parts) {item : FormatHole} (hm : .hole item ∈ parts) :
    item.index < 1000000 := by
  induction h with
  | ended => simp at hm
  | interrupted _ hhole _ ih =>
    rcases List.mem_cons.mp hm with hm | hm
    · simp at hm
    · rcases List.mem_cons.mp hm with hm | hm
      · obtain rfl := FormatSegment.hole.inj hm
        cases hhole with
        | filled hnum => exact hnum.bounded
      · exact ih hm

private theorem foldl_max_le_iff (counts : List Nat) (start bound : Nat) :
    counts.foldl max start ≤ bound ↔ start ≤ bound ∧ ∀ count ∈ counts, count ≤ bound := by
  induction counts generalizing start with
  | nil => simp
  | cons count rest ih =>
    rw [List.foldl_cons, ih, Nat.max_le, List.forall_mem_cons, and_assoc]

/-- The arguments that a format asks for are no more than a bound exactly if each hole is below
it. -/
private theorem minimumArgumentCount_le_iff (parts : List FormatSegment) (bound : Nat) :
    minimumArgumentCount parts ≤ bound ↔ ∀ item, .hole item ∈ parts → item.index < bound := by
  rw [minimumArgumentCount, foldl_max_le_iff, List.forall_mem_map]
  constructor
  · exact fun h item hm => h.2 _ hm
  · refine fun h => ⟨Nat.zero_le _, fun part hm => ?_⟩
    cases part with
    | literal => exact Nat.zero_le _
    | hole item => exact h item hm

private theorem index_lt_minimumArgumentCount {parts : List FormatSegment} {item : FormatHole}
    (h : .hole item ∈ parts) : item.index < minimumArgumentCount parts :=
  (minimumArgumentCount_le_iff parts _).mp (Nat.le_refl _) item h

/-- The arguments that a format asks for are those that its holes take. -/
theorem takesArguments_minimumArgumentCount (parts : List FormatSegment) :
    TakesArguments parts (minimumArgumentCount parts) where
  below _ := index_lt_minimumArgumentCount
  reached h := by
    by_contra hnone
    push Not at hnone
    -- if no hole reached the count, one argument less would do for all of them
    have hbelow : ∀ item, .hole item ∈ parts → item.index < minimumArgumentCount parts - 1 := by
      intro item hm
      have hlt := index_lt_minimumArgumentCount hm
      have hne := hnone item hm
      omega
    have hle := (minimumArgumentCount_le_iff parts _).mpr hbelow
    omega

theorem parse_eq_ok_iff_composite {text : String} {parts : List FormatSegment} :
    parse text = .ok parts ↔ Composite text.toList parts := by
  have hparse : parse text = .ok parts ↔ segments text.toList = .ok parts := by
    unfold parse
    cases segments text.toList <;> simp
  exact hparse.trans ⟨segments_sound, segments_complete⟩

/-- A text can be read as a composite format exactly if the grammar derives it, and gives the parts
that the grammar says. It then asks for no more than a million arguments, for more than the number
of any argument in it, and for none exactly if it has no holes. -/
theorem parse_eq_ok_iff (text : String) (parts : List FormatSegment) :
    (parse text = .ok parts ↔ Composite text.toList parts) ∧
      (Composite text.toList parts →
        minimumArgumentCount parts ≤ 1000000 ∧
        (∀ item, .hole item ∈ parts → item.index < minimumArgumentCount parts) ∧
        (minimumArgumentCount parts = 0 ↔ ∀ item, .hole item ∉ parts)) := by
  refine ⟨parse_eq_ok_iff_composite, fun h => ⟨?_, ?_, ?_⟩⟩
  · exact (minimumArgumentCount_le_iff parts 1000000).mpr fun item hm => h.index_lt hm
  · exact fun _ => index_lt_minimumArgumentCount
  · rw [← Nat.le_zero, minimumArgumentCount_le_iff]
    simp

/-- A text with doubled braces and a padded hole is a composite format. -/
theorem parse_eq_ok_iff_padded :
    let parts : List FormatSegment :=
      [.literal "Hi ", .hole ⟨2, -8, some "N2"⟩, .literal "! \x7bok\x7d"]
    Composite "Hi \x7b2 , -8 :N2\x7d! \x7b\x7bok\x7d\x7d".toList parts ∧
      minimumArgumentCount parts = 3 ∧ minimumArgumentCount parts ≤ 1000000 := by
  intro parts
  obtain ⟨hread, hcount⟩ := parse_eq_ok_iff "Hi \x7b2 , -8 :N2\x7d! \x7b\x7bok\x7d\x7d" parts
  have h : Composite "Hi \x7b2 , -8 :N2\x7d! \x7b\x7bok\x7d\x7d".toList parts :=
    hread.mp (by decide +kernel)
  exact ⟨h, rfl, (hcount h).1⟩

end SourceGen.CompositeFormat
