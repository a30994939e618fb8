import SourceGen.Proofs.Collections
import SourceGen.Proofs.Compilation.Declared

/-! The types that a file declares: those that are listed for it, each of them once. -/

namespace SourceGen

namespace TypeSymbol

/-- The type around a type, if it is among the given ones. -/
def containingAmong (type : TypeSymbol) (types : List TypeSymbol) : Option TypeSymbol :=
  type.containing.filter fun outer => types.any (·.isSame outer)

theorem isTopAmong_eq (type : TypeSymbol) (types : List TypeSymbol) :
    type.isTopAmong types = (type.containingAmong types).isNone := by
  cases h : type.containing with
  | none => simp [isTopAmong, containingAmong, h]
  | some outer =>
    cases ha : types.any (·.isSame outer) <;> simp [isTopAmong, containingAmong, h, ha]

theorem isSame_symm {type other : TypeSymbol} (h : type.isSame other = true) :
    other.isSame type = true := by
  simp only [isSame, Bool.and_eq_true, beq_iff_eq] at h ⊢
  exact ⟨h.2 ▸ h.1, h.2.symm⟩

theorem isSame_trans {type other third : TypeSymbol} (h : type.isSame other = true)
    (ho : other.isSame third = true) : type.isSame third = true := by
  simp only [isSame, Bool.and_eq_true, beq_iff_eq] at h ho ⊢
  exact ⟨h.1, h.2.trans ho.2⟩

private theorem sizeOf_containing {type outer : TypeSymbol} (h : type.containing = some outer) :
    sizeOf outer < sizeOf type := by
  obtain ⟨info, containing, arguments, base, interfaces, attributes, members, element⟩ := type
  obtain rfl := h
  simp
  omega

private theorem within_zero (types : List TypeSymbol) (type : TypeSymbol) :
    type.within types 0 = [type] := by
  simp [within]

private theorem flatMap_within_zero (types listed : List TypeSymbol) :
    types.flatMap (within listed 0) = types := by
  rw [List.flatMap_congr fun type _ => within_zero listed type, List.flatMap_singleton']

/-- Whether a type lies at most so many levels below the top of a file. -/
private def isWithin (types : List TypeSymbol) : Nat → TypeSymbol → Bool
  | 0, type => (type.containingAmong types).isNone
  | depth + 1, type => (type.containingAmong types).all (isWithin types depth)

end TypeSymbol

open TypeSymbol

/-- Whether types can be listed for a file: none of them twice, and none that lies in an enumeration
of them. What lies in one of them by identity lies in that very type. -/
structure Listable (types : List TypeSymbol) : Prop where
  once : types.Pairwise fun a b => a.isSame b = false
  identified : ∀ outer ∈ types, ∀ inner ∈ outer.nestedAmong types, inner.containing = some outer
  outside : ∀ outer ∈ types, outer.info.kind = .enumType → outer.nestedAmong types = []

namespace Listable

variable {types : List TypeSymbol} (h : Listable types)

include h

/-- What a listed type lies in, if that is listed too. -/
theorem containingAmong_eq_some {type outer : TypeSymbol} (ht : type ∈ types) :
    type.containingAmong types = some outer ↔ outer ∈ types ∧ type ∈ outer.nestedAmong types := by
  constructor
  · intro hc
    obtain ⟨hcontaining, hlisted⟩ := Option.filter_eq_some_iff.mp hc
    obtain ⟨listed, hm, hs⟩ := List.any_eq_true.mp hlisted
    have hn : type ∈ listed.nestedAmong types :=
      List.mem_filter.mpr ⟨ht, by simpa [hcontaining] using isSame_symm hs⟩
    obtain rfl := Option.some.inj (hcontaining.symm.trans (h.identified listed hm type hn))
    exact ⟨hm, hn⟩
  · rintro ⟨hm, hn⟩
    have hcontaining := h.identified outer hm type hn
    refine Option.filter_eq_some_iff.mpr ⟨hcontaining, List.any_eq_true.mpr ⟨outer, hm, ?_⟩⟩
    simpa [hcontaining] using (List.mem_filter.mp hn).2

theorem containingAmong_of_liesIn {type : TypeSymbol} (ht : type ∈ types)
    {outer : Option TypeSymbol} (ho : ∀ found ∈ outer, found ∈ types)
    (hl : type.LiesIn types outer) : type.containingAmong types = outer := by
  cases outer with
  | none => exact Option.isNone_iff_eq_none.mp ((type.isTopAmong_eq types).symm.trans hl)
  | some outer =>
    exact (h.containingAmong_eq_some ht).mpr ⟨ho outer rfl, List.mem_filter.mpr ⟨ht, hl⟩⟩

private theorem within_succ {type : TypeSymbol} (ht : type ∈ types) (depth : Nat) :
    type.within types (depth + 1) =
      type :: (type.nestedAmong types).flatMap (within types depth) := by
  by_cases hk : type.info.kind = .enumType
  · simp [within, hk, h.outside type ht hk]
  · simp [within, hk]

/-- One level more adds the types directly inside of those that there are. -/
private theorem within_deeper {type : TypeSymbol} (ht : type ∈ types) (depth : Nat) :
    (type.within types (depth + 1)).Perm
      (type :: (type.within types depth).flatMap (·.nestedAmong types)) := by
  induction depth generalizing type with
  | zero =>
    rw [h.within_succ ht, within_zero, List.flatMap_singleton, flatMap_within_zero]
  | succ depth ih =>
    have hnested : ∀ inner ∈ type.nestedAmong types, inner ∈ types :=
      fun inner hm => List.mem_of_mem_filter hm
    rw [h.within_succ ht (depth + 1), h.within_succ ht depth, List.flatMap_cons, List.flatMap_assoc]
    refine ((List.Perm.flatMap_left _ fun inner hm => ih (hnested inner hm)).trans ?_).cons type
    have hsplit := List.flatMap_append_perm (type.nestedAmong types) (fun inner => [inner])
      fun inner => (inner.within types depth).flatMap (·.nestedAmong types)
    simpa using hsplit.symm

/-- The types inside of those down to a depth are the others down to the next. -/
private theorem nested_perm (depth : Nat) :
    ((types.filter (isWithin types depth)).flatMap (·.nestedAmong types)).Perm
      (types.filter fun type => (type.containingAmong types).any (isWithin types depth)) := by
  let deeper := types.filter fun type => (type.containingAmong types).any (isWithin types depth)
  let owns (outer inner : TypeSymbol) : Bool := inner.containing.any (·.isSame outer)
  have hnested : ∀ outer ∈ types.filter (isWithin types depth),
      outer.nestedAmong types = deeper.filter (owns outer) := by
    intro outer ho
    obtain ⟨hm, hw⟩ := List.mem_filter.mp ho
    rw [List.filter_filter]
    refine List.filter_congr fun inner hi => ?_
    cases howns : owns outer inner with
    | false => exact howns
    | true =>
      have hc := (h.containingAmong_eq_some hi).mpr ⟨hm, List.mem_filter.mpr ⟨hi, howns⟩⟩
      rw [hc, Option.any_some, hw]
      exact howns
  rw [List.flatMap_congr hnested]
  refine flatMap_filter_perm ((h.once.sublist List.filter_sublist).imp ?_) ?_
  · intro a b hab item ha
    obtain ⟨containing, hc, hs⟩ := (Option.any_eq_true _ _).mp ha
    refine Bool.eq_false_iff.mpr fun hb => ?_
    have hsb : containing.isSame b = true := by simpa [owns, hc] using hb
    exact absurd (isSame_trans (isSame_symm hs) hsb) (by simp [hab])
  · intro item hm
    obtain ⟨hi, hany⟩ := List.mem_filter.mp hm
    obtain ⟨outer, hc, hw⟩ := (Option.any_eq_true _ _).mp hany
    obtain ⟨ho, hn⟩ := (h.containingAmong_eq_some hi).mp hc
    exact ⟨outer, List.mem_filter.mpr ⟨ho, hw⟩, (List.mem_filter.mp hn).2⟩

private theorem declared_perm (depth : Nat) :
    ((types.filter (·.isTopAmong types)).flatMap (within types depth)).Perm
      (types.filter (isWithin types depth)) := by
  induction depth with
  | zero =>
    rw [flatMap_within_zero]
    simp only [isTopAmong_eq, isWithin]
    exact .refl _
  | succ depth ih =>
    -- the top of the file and what lies deeper are both apart in the listed types
    let top := types.filter (·.isTopAmong types)
    let inner := types.filter fun type => (type.containingAmong types).any (isWithin types depth)
    have hsplit := List.flatMap_append_perm top (fun type => [type])
      fun type => (type.within types depth).flatMap (·.nestedAmong types)
    rw [List.flatMap_singleton', ← List.flatMap_assoc] at hsplit
    have hfilter : (top ++ inner).Perm (types.filter (isWithin types (depth + 1))) := by
      have hparts := List.filter_append_perm (fun type => type.isTopAmong types)
        (types.filter (isWithin types (depth + 1)))
      rw [List.filter_filter, List.filter_filter] at hparts
      refine List.Perm.trans (List.Perm.of_eq (congrArg₂ _ ?_ ?_)) hparts
      · refine List.filter_congr fun type _ => ?_
        cases hc : type.containingAmong types <;> simp [isTopAmong_eq, isWithin, hc]
      · refine List.filter_congr fun type _ => ?_
        cases hc : type.containingAmong types <;> simp [isTopAmong_eq, isWithin, hc]
    have hdeeper : (top.flatMap (within types (depth + 1))).Perm (top.flatMap fun type =>
        [type] ++ (type.within types depth).flatMap (·.nestedAmong types)) :=
      List.Perm.flatMap_left _ fun type hm => h.within_deeper (List.mem_of_mem_filter hm) depth
    have hinner : ((top.flatMap (within types depth)).flatMap (·.nestedAmong types)).Perm inner :=
      (ih.flatMap_right _).trans (h.nested_perm depth)
    exact hdeeper.trans (hsplit.symm.trans ((hinner.append_left top).trans hfilter))

/-- Each type lies deeper than those around it, so there are no more levels than types. -/
private theorem isWithin_length {type : TypeSymbol} (ht : type ∈ types) :
    type.isWithin types types.length = true := by
  -- fewer and fewer types are smaller than those around a type
  let smaller (type : TypeSymbol) := types.filter fun other => decide (sizeOf other < sizeOf type)
  have hsmaller {type outer : TypeSymbol} (ht : type ∈ types)
      (hc : type.containingAmong types = some outer) :
      outer ∈ types ∧ (smaller outer).length < (smaller type).length := by
    obtain ⟨ho, hn⟩ := (h.containingAmong_eq_some ht).mp hc
    have hlt := sizeOf_containing (h.identified outer ho type hn)
    have hsame : smaller outer =
        (smaller type).filter fun other => decide (sizeOf other < sizeOf outer) := by
      rw [List.filter_filter]
      refine List.filter_congr fun other _ => ?_
      rw [← Bool.decide_and, decide_eq_decide]
      omega
    rw [hsame, List.length_filter_lt_length_iff_exists]
    exact ⟨ho, outer, List.mem_filter.mpr ⟨ho, decide_eq_true hlt⟩, by simp⟩
  have hdepth (depth : Nat) : ∀ type ∈ types, (smaller type).length ≤ depth →
      type.isWithin types depth = true := by
    induction depth with
    | zero =>
      intro type ht hl
      cases hc : type.containingAmong types with
      | none => simp [isWithin, hc]
      | some outer =>
        have := (hsmaller ht hc).2
        omega
    | succ depth ih =>
      intro type ht hl
      cases hc : type.containingAmong types with
      | none => simp [isWithin, hc]
      | some outer =>
        obtain ⟨ho, hlt⟩ := hsmaller ht hc
        rw [isWithin, hc]
        exact ih outer ho (by omega)
  exact hdepth types.length type ht (List.length_filter_le _ _)

/-- A file declares the types that are listed for it. -/
theorem declaredTypes_listed : (declaredTypes types).Perm types := by
  refine (h.declared_perm types.length).trans ?_
  rw [List.filter_eq_self.mpr fun type ht => h.isWithin_length ht]

end Listable

end SourceGen
